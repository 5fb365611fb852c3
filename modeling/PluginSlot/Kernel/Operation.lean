import PluginSlot.Kernel.Invariant
/-!
Everything that can be asked of a kernel, as data, so that a history is a list.
-/
namespace PluginSlot.Kernel

inductive Operation where
  | control (caller : Caller) (target : Handle) (op : ControlOp)
  | controlRaw (caller : Caller) (target : Handle) (code arg : UInt32)
  | createProcess (name : String) (titleId : UInt64)
  | createThread (owner : ProcessId) (core : CoreId)
  | setTls (t : ThreadId) (slot : Nat) (value : UInt32)
  | setThreadState (t : ThreadId) (state : ThreadState)
  | setDebugLock (t : ThreadId) (locked : Bool)
  | beginExit (p : ProcessId)
  | destroyProcess (p : ProcessId)
  | runOnCore (t : ThreadId)
  | enqueue (t : ThreadId)
  | evict (t : ThreadId)
  | reschedule (c : CoreId)
  | tick (c : CoreId)
  | raiseIpi (c : CoreId)
  | deliverIpis
  | setPluginLock (t : ThreadId)
  | clearPluginLock (t : ThreadId)
  | setSyncOwner (t : Option ThreadId)
  | retain (o : ObjectId)
  | release (o : ObjectId)
  | openHandle (p : ProcessId) (o : ObjectId)
  | openProcess (p target : ProcessId)
  | createObject (p : ProcessId) (c : ObjectClass)
  | closeHandle (p : ProcessId) (h : Handle)
  | acquireProcess (p : ProcessId) (h : Handle)
  | releaseProcess (p : ProcessId)
  | titleOf (p : ProcessId) (h : Handle)
  | clearEvent (p : ProcessId) (h : Handle)
  | mapPage (p : ProcessId) (virtual physical : UInt32) (permissions : Permissions)
  | unmapPage (p : ProcessId) (virtual : UInt32)

/-- Questions, which change nothing. -/
inductive Query where
  | lookup (p : ProcessId) (h : Handle)
  | eventSignaled (p : ProcessId) (h : Handle)
  | translate (p : ProcessId) (virtual : UInt32)
  | object (o : ObjectId)
  | references (p : ProcessId)
  | threadsOf (p : ProcessId)
  | runningCore (t : ThreadId)
  | processName (p : ProcessId)
  | violations
  | description
  | snapshot

/-- Direct writes to the state, by which a test puts it into a shape that no operation leads to. -/
inductive Tamper where
  | append (c : CoreId) (t : ThreadId)
  | setCurrent (c : CoreId) (t : Option ThreadId)
  | setMask (t : ThreadId) (m : Mask)
  | setCore (t : ThreadId) (c : CoreId)
  | setOwner (t : ThreadId) (p : ProcessId)
  | setReferences (o : ObjectId) (n : Nat)

inductive Outcome where
  | done
  | failed (e : Error)
  | flag (b : Bool)
  | number (n : Nat)
  | numbers (ns : List Nat)
  | text (t : String)
  | nothing
  | control (output : ControlOutput)
  | object (o : Object)
  | violations (list : List Violation)
  | snapshot (s : State)

namespace Outcome

def ofExcept {α : Type} (f : α → Outcome) : Except Error α → Outcome
  | .error e => failed e
  | .ok a => f a

def ofOption {α : Type} (f : α → Outcome) : Option α → Outcome
  | none => nothing
  | some a => f a

end Outcome

/-- The kernel behind its critical section, which nobody holds between operations. -/
def State.text (_ : State) : String := "Kernel \x7b owner: None, .. \x7d"

private def answer {α : Type} (f : α → Outcome) (r : Except Error α × State) : Outcome × State :=
  (.ofExcept f r.1, r.2)

private def unit (r : Except Error Unit × State) : Outcome × State := answer (fun _ => .done) r

def Operation.run (op : Operation) (s : State) : Outcome × State :=
  match op with
  | control caller target op => answer .control (s.control caller target op)
  | controlRaw caller target code arg => answer .control (s.controlRaw caller target code arg)
  | createProcess name titleId =>
    let (p, s) := s.createProcess name titleId
    (.number p.val, s)
  | createThread owner core => answer (fun t => .number t.val) (s.createThread owner core)
  | setTls t slot value => unit (s.setTls t slot value)
  | setThreadState t state => unit (s.setThreadState t state)
  | setDebugLock t locked => unit (s.setDebugLock t locked)
  | beginExit p => answer .flag (s.beginExit p)
  | destroyProcess p => unit (s.destroyProcess p)
  | runOnCore t => unit (s.runOnCore t)
  | enqueue t => (.done, s.enqueue t)
  | evict t => (.done, s.evict t)
  | reschedule c => (.done, s.reschedule c)
  | tick c =>
    let (t, s) := s.tick c
    (.ofOption (fun t => .number t.val) t, s)
  | raiseIpi c => (.done, s.raiseIpi c)
  | deliverIpis =>
    let (cores, s) := s.deliverIpis
    (.numbers (cores.map (·.val)), s)
  | setPluginLock t =>
    let (changed, s) := s.setPluginLock t
    (.flag changed, s)
  | clearPluginLock t =>
    let (changed, s) := s.clearPluginLock t
    (.flag changed, s)
  | setSyncOwner t => (.done, { s with syncOwner := t })
  | retain o => unit (s.retain o)
  | release o => (.done, s.release o)
  | openHandle p o => answer (fun h => .number h.val.toNat) (s.openHandle p o)
  | openProcess p target => answer (fun h => .number h.val.toNat) (s.openProcess p target)
  | createObject p c => answer (fun h => .number h.val.toNat) (s.createObject p c)
  | closeHandle p h => unit (s.closeHandle p h)
  | acquireProcess p h => answer (fun p => .number p.val) (s.acquireProcess p h)
  | releaseProcess p => (.done, s.releaseProcess p)
  | titleOf p h => answer (fun t => .number t.toNat) (s.titleOf p h)
  | clearEvent p h => answer .flag (s.clearEvent p h)
  | mapPage p virtual physical permissions => unit (s.mapPage p virtual physical permissions)
  | unmapPage p virtual => unit (s.unmapPage p virtual)

def Query.run (q : Query) (s : State) : Outcome :=
  match q with
  | lookup p h => .ofExcept (fun o => .number o.val) (s.lookup p h)
  | eventSignaled p h => .ofExcept .flag (s.eventSignaled p h)
  | translate p virtual => .ofExcept (fun a => .number a.toNat) (s.translate p virtual)
  | object o => .ofOption .object (s.object? o)
  | references p => .ofOption .number (s.processReferences p)
  | threadsOf p => .numbers ((s.threadsOf p).map (·.val))
  | runningCore t => .ofOption (fun c => .number c.val) (s.runningCore t)
  | processName p => .ofOption .text (s.processName p)
  | violations => .violations s.violations
  | description => .text s.text
  | snapshot => .snapshot s

def Tamper.run (tamper : Tamper) (s : State) : State :=
  match tamper with
  | append c t => s.modifyCore c fun core => { core with queue := core.queue ++ [t] }
  | setCurrent c t => s.setCurrent c t
  | setMask t m => s.setMask t m
  | setCore t c => s.modifyThread t ({ · with core := c })
  | setOwner t p => s.modifyThread t ({ · with owner := p })
  | setReferences o n => s.modifyObject o ({ · with count := .ofNat n })

inductive Step where
  | operation (op : Operation)
  | query (q : Query)
  | tamper (t : Tamper)

def Step.run (step : Step) (s : State) : Outcome × State :=
  match step with
  | operation op => op.run s
  | query q => (q.run s, s)
  | tamper t => (.done, t.run s)

def State.runAll (s : State) (ops : List Operation) : State := ops.foldl (fun s op => (op.run s).2) s

theorem State.runAll_cons (s : State) (op : Operation) (ops : List Operation) :
    s.runAll (op :: ops) = (op.run s).2.runAll ops := rfl

theorem State.runAll_append (s : State) (ops rest : List Operation) :
    s.runAll (ops ++ rest) = (s.runAll ops).runAll rest := List.foldl_append

theorem State.runAll_concat (s : State) (ops : List Operation) (op : Operation) :
    s.runAll (ops ++ [op]) = (op.run (s.runAll ops)).2 := s.runAll_append ops [op]

end PluginSlot.Kernel
