import PluginSlot.Kernel.State
/-!
References. An object lives while a handle, or the kernel itself, refers to it; a process record
goes with its object, and then drops the one reference it holds itself.
-/
namespace PluginSlot.Kernel.State

def addReference (s : State) (o : ObjectId) : State := s.modifyObject o Object.taken

def retain (s : State) (o : ObjectId) : Except Error Unit × State :=
  if s.objects.contains o then (.ok (), s.addReference o) else (.error .invalidHandle, s)

/-- Drop one reference. If none is left, the object goes, and the process it stood for, if any, is
told. -/
def dropReference (s : State) (o : ObjectId) : Option ProcessId × State :=
  match s.object? o with
  | none => (none, s)
  | some object =>
    if object.dropped.count > 0 then (none, s.modifyObject o Object.dropped)
    else
      let s := { s with objects := s.objects.erase o }
      match object.body with
      | .process p => (some p, s)
      | _ => (none, s)

theorem dropReference_of_shared {s : State} {o : ObjectId} {object : Object}
    (ho : s.object? o = some object) (hmore : 1 < object.references) :
    s.dropReference o = (none, s.modifyObject o Object.dropped) := by
  simp only [dropReference, ho, if_pos (Object.count_dropped_pos_iff.mpr hmore)]

theorem dropReference_of_last {s : State} {o : ObjectId} {object : Object}
    (ho : s.object? o = some object) (hlast : object.references ≤ 1) :
    s.dropReference o =
      ((match object.body with | .process p => some p | _ => none),
        { s with objects := s.objects.erase o }) := by
  have hnot : ¬object.dropped.count > 0 :=
    fun h => Nat.not_lt.mpr hlast (Object.count_dropped_pos_iff.mp h)
  simp only [dropReference, ho, if_neg hnot]
  split <;> rfl

theorem dropReference_cases (s : State) (o : ObjectId) :
    s.object? o = none ∧ (s.dropReference o).2 = s ∨
      (∃ object, s.object? o = some object ∧ 1 < object.references ∧
        (s.dropReference o).2 = s.modifyObject o Object.dropped) ∨
      ∃ object, s.object? o = some object ∧ object.references ≤ 1 ∧
        (s.dropReference o).2 = { s with objects := s.objects.erase o } := by
  cases ho : s.object? o with
  | none => exact .inl ⟨rfl, by rw [dropReference, ho]⟩
  | some object =>
    obtain hmore | hlast := Nat.lt_or_ge 1 object.references
    · exact .inr (.inl ⟨object, rfl, hmore, by rw [dropReference_of_shared ho hmore]⟩)
    · exact .inr (.inr ⟨object, rfl, hlast, by rw [dropReference_of_last ho hlast]⟩)

/-- Drop one reference. The record of a process goes with its object, and with it the reference to
its memory-change event, which is no process. -/
def release (s : State) (o : ObjectId) : State :=
  match s.dropReference o with
  | (none, s) => s
  | (some p, s) =>
    let event := (s.process? p).bind (·.memoryChangeEvent)
    let s := { s with processes := s.processes.erase p }
    match event with
    | none => s
    | some e => (s.dropReference e).2

/-- A release drops one reference, or it drops two, with a record that goes in between. -/
theorem release_keeps {P : State → Prop} (hdrop : ∀ s o, P s → P (s.dropReference o).2)
    (herase : ∀ s p, P s → P { s with processes := s.processes.erase p }) {s : State} (hs : P s)
    (o : ObjectId) : P (s.release o) := by
  have hfirst := hdrop s o hs
  rw [release]
  split
  next he => rwa [he] at hfirst
  next p dropped he =>
    rw [he] at hfirst
    have herased := herase dropped p hfirst
    dsimp only
    split
    · exact herased
    · exact hdrop _ _ herased

/-- Give a process a handle to an object, with a reference of its own. -/
def openHandle (s : State) (owner : ProcessId) (o : ObjectId) : Except Error Handle × State :=
  match s.process? owner with
  | none => (.error .invalidHandle, s)
  | some process =>
    if !s.objects.contains o then (.error .invalidHandle, s)
    else match process.handles.insert o with
      | none => (.error .outOfResource, (s.addReference o).release o)
      | some (h, handles) =>
        (.ok h, (s.addReference o).modifyProcess owner ({ · with handles := handles }))

def openProcess (s : State) (owner target : ProcessId) : Except Error Handle × State :=
  match s.process? target with
  | none => (.error .invalidHandle, s)
  | some process => s.openHandle owner process.object

/-- Create an object that only a new handle refers to. -/
def createObject (s : State) (owner : ProcessId) (c : ObjectClass) :
    Except Error Handle × State :=
  let create (body : ObjectBody) : Except Error Handle × State :=
    let (o, s) := s.allocate body
    let (handle, s) := s.openHandle owner o
    (handle, s.release o)
  match c with
  | .process => (.error .wrongObjectType, s)
  | .event => create (.event false false)
  | .addressArbiter => create .addressArbiter

def closeHandle (s : State) (owner : ProcessId) (h : Handle) : Except Error Unit × State :=
  match (s.process? owner).bind fun p => (p.handles.remove h).1 with
  | none => (.error .invalidHandle, s)
  | some o =>
    (.ok (), (s.modifyProcess owner fun p => { p with handles := (p.handles.remove h).2 }).release o)

def lookup (s : State) (owner : ProcessId) (h : Handle) : Except Error ObjectId :=
  match s.process? owner with
  | none => .error .invalidHandle
  | some process =>
    if h = .currentProcess then .ok process.object
    else match process.handles.get? h with
      | none => .error .invalidHandle
      | some o => .ok o

def resolveProcess (s : State) (caller : ProcessId) (h : Handle) :
    Except Error (ProcessId × ObjectId) :=
  match s.lookup caller h with
  | .error e => .error e
  | .ok o =>
    match s.object? o with
    | some ⟨.process p, _⟩ => if s.processes.contains p then .ok (p, o) else .error .invalidHandle
    | some _ => .error .wrongObjectType
    | none => .error .invalidHandle

/-- Resolve a process handle and take a reference, to be dropped by `releaseProcess`. -/
def acquireProcess (s : State) (caller : ProcessId) (h : Handle) :
    Except Error ProcessId × State :=
  match s.resolveProcess caller h with
  | .error e => (.error e, s)
  | .ok (p, o) => (.ok p, s.addReference o)

def releaseProcess (s : State) (p : ProcessId) : State :=
  match s.process? p with
  | none => s
  | some process => s.release process.object

/-- Use the process a handle names, with a reference held meanwhile. -/
def withProcess {α : Type} (s : State) (caller : ProcessId) (h : Handle)
    (use : ProcessId → State → Except Error α × State) : Except Error α × State :=
  match s.acquireProcess caller h with
  | (.error e, s) => (.error e, s)
  | (.ok p, s) =>
    let (r, s) := use p s
    (r, s.releaseProcess p)

def titleOf (s : State) (owner : ProcessId) (h : Handle) : Except Error UInt64 × State :=
  s.withProcess owner h fun p s =>
    match s.process? p with
    | none => (.error .invalidHandle, s)
    | some process => (.ok process.titleId, s)

def processReferences (s : State) (p : ProcessId) : Option Nat :=
  (s.process? p).bind fun process => (s.object? process.object).map (·.references)

def eventSignaled (s : State) (owner : ProcessId) (h : Handle) : Except Error Bool :=
  match s.lookup owner h with
  | .error e => .error e
  | .ok o =>
    match s.object? o with
    | some ⟨.event signaled _, _⟩ => .ok signaled
    | some _ => .error .wrongObjectType
    | none => .error .invalidHandle

def setSignaled (signaled : Bool) (object : Object) : Object :=
  match object.body with
  | .event _ oneShot => { object with body := .event signaled oneShot }
  | _ => object

def signalEvent (s : State) (o : ObjectId) : State := s.modifyObject o (setSignaled true)

def clearEvent (s : State) (owner : ProcessId) (h : Handle) : Except Error Bool × State :=
  match s.eventSignaled owner h, s.lookup owner h with
  | .ok signaled, .ok o => (.ok signaled, s.modifyObject o (setSignaled false))
  | r, _ => (r, s)

end PluginSlot.Kernel.State
