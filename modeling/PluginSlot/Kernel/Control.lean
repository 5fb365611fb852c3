import PluginSlot.Kernel.Lifetime
import PluginSlot.Kernel.Paging
import PluginSlot.Text.Hex
/-!
Process control: the operations by which a privileged caller inspects a target process and holds
or releases its threads. The target is kept alive by a reference for the duration of the call.
-/
namespace PluginSlot.Kernel

inductive ScheduleMode where
  | lock
  | unlock
deriving DecidableEq, Repr

def ScheduleMode.name : ScheduleMode → String
  | lock => "Lock"
  | unlock => "Unlock"

structure Caller where
  process : ProcessId
  thread : ThreadId
  core : CoreId
deriving DecidableEq, Repr

inductive ControlOp where
  /-- List the target's handles, of one class or all. -/
  | listHandles (class? : Option ObjectClass)
  /-- Give every page of the target full access, now and later. -/
  | forceRwx
  /-- Get a handle to the caller's own memory-change event. -/
  | memoryChangeEvent
  /-- Ask for a signal when the target exits. -/
  | signalOnExit
  | physicalAddress (virtual : UInt32)
  /-- Hold or release the target's threads that pass the filter. -/
  | schedule (mode : ScheduleMode) (filter : Option ThreadFilter)

namespace ControlCode
def listHandles : UInt32 := 0
def forceRwx : UInt32 := 1
def memoryChangeEvent : UInt32 := 2
def signalOnExit : UInt32 := 3
def physicalAddress : UInt32 := 4
def schedule : UInt32 := 5

/-- Argument of a schedule operation that releases; any other value holds. -/
def unlock : UInt32 := 0
def lock : UInt32 := 1
end ControlCode

namespace ControlOp

/-- Read an operation code and its argument. A class token that names no class lists every
handle. -/
def decode (code arg : UInt32) (filter : Option ThreadFilter) : Except Error ControlOp :=
  if code = ControlCode.listHandles then
    if arg > 0xFF then .error .invalidEnumValue
    else .ok (.listHandles (ObjectClass.ofToken? arg.toUInt8))
  else if code = ControlCode.forceRwx then .ok .forceRwx
  else if code = ControlCode.memoryChangeEvent then .ok .memoryChangeEvent
  else if code = ControlCode.signalOnExit then .ok .signalOnExit
  else if code = ControlCode.physicalAddress then .ok (.physicalAddress arg)
  else if code = ControlCode.schedule then
    .ok (.schedule (if arg = ControlCode.unlock then .unlock else .lock) filter)
  else .error .notImplemented

end ControlOp

def ControlOp.text : ControlOp → String
  | listHandles none => "GetAllHandles \x7b class: None \x7d"
  | listHandles (some c) => "GetAllHandles \x7b class: Some(" ++ c.name ++ ") \x7d"
  | forceRwx => "SetMmuToRwx"
  | memoryChangeEvent => "GetOnMemoryChangeEvent"
  | signalOnExit => "SignalOnExit"
  | physicalAddress virtual => "GetPaFromVa(" ++ Text.hexPadded 8 virtual.toNat ++ ")"
  | schedule mode filter =>
    "ScheduleThreads \x7b mode: " ++ mode.name ++ ", filtered: " ++
      (if filter.isSome then "true" else "false") ++ " \x7d"

structure ScheduleReport where
  /-- Threads that gained the hold. -/
  locked : List ThreadId
  /-- Threads that lost the hold. -/
  unlocked : List ThreadId
  /-- Cores that were made to reschedule. -/
  interrupted : List CoreId
  /-- Terminating threads of the target. -/
  skipped : Nat
deriving DecidableEq, Repr

def ScheduleReport.none : ScheduleReport := ⟨[], [], [], 0⟩

inductive ControlOutput where
  | handles (list : List Handle)
  | handle (h : Handle)
  | physicalAddress (address : UInt32)
  | schedule (report : ScheduleReport)
  | done
deriving DecidableEq, Repr

namespace State

def matchesFilter (filter : Option ThreadFilter) (t : ThreadId) (thread : Thread) : Bool :=
  filter.all fun accepts => accepts (thread.view t)

/-- Threads of the target that pass the filter and are not terminating, in list order. -/
def scheduleTargets (s : State) (p : ProcessId) (filter : Option ThreadFilter) : List ThreadId :=
  (s.threads.entries.filter fun (t, thread) =>
    thread.owner = p && !thread.mask.isTerminating && matchesFilter filter t thread).map (·.1)

/-- Terminating threads of the target, whatever the filter says of them. -/
def terminatingCount (s : State) (p : ProcessId) : Nat :=
  s.threads.entries.countP fun (_, thread) => thread.owner = p && thread.mask.isTerminating

/-- Release threads one by one; those that were not held are not reported. -/
def unlockEach (s : State) : List ThreadId → List ThreadId × State
  | [] => ([], s)
  | t :: rest =>
    let (unlocked, s) := s.clearPluginLock t
    let (others, s) := s.unlockEach rest
    (if unlocked then t :: others else others, s)

def unlockThreads (s : State) (p : ProcessId) (filter : Option ThreadFilter) :
    ScheduleReport × State :=
  let (unlocked, s') := s.unlockEach (s.scheduleTargets p filter)
  ({ ScheduleReport.none with unlocked := unlocked, skipped := s.terminatingCount p }, s')

/-- First pass of a lock: hold every target that is not executing. The holder of the
synchronization mutex is spared. -/
def lockIdle (s : State) : List ThreadId → List ThreadId × State
  | [] => ([], s)
  | t :: rest =>
    let (locked, s) :=
      if (s.runningCore t).isSome || s.syncOwner = some t then (false, s) else s.setPluginLock t
    let (others, s) := s.lockIdle rest
    (if locked then t :: others else others, s)

/-- Ask for the rescheduling that a newly held thread needs: its core and the caller's by
interrupt, unless they are the same. -/
def interruptFor (s : State) (caller home : CoreId) : State :=
  if home = caller then s else (s.raiseIpi caller).raiseIpi home

/-- Second pass of a lock: hold the targets still without a hold, and ask their cores to
reschedule. Also tells whether the caller's own core executes one of them. -/
def lockExecuting (s : State) (caller : CoreId) : List ThreadId → List ThreadId × Bool × State
  | [] => ([], false, s)
  | t :: rest =>
    match (if s.syncOwner = some t then none else s.thread? t) with
    | none => s.lockExecuting caller rest
    | some thread =>
      let (locked, s) := s.setPluginLock t
      if locked then
        let own := thread.core = caller && s.runningCore t = some thread.core
        let (others, own', s) := (s.interruptFor caller thread.core).lockExecuting caller rest
        (t :: others, own || own', s)
      else s.lockExecuting caller rest

/-- Hold the targets. Threads that execute somewhere are held last, and every core concerned has
rescheduled when the operation returns. -/
def lockThreads (s : State) (caller : CoreId) (p : ProcessId) (filter : Option ThreadFilter) :
    ScheduleReport × State :=
  let targets := s.scheduleTargets p filter
  let skipped := s.terminatingCount p
  let (idle, s') := s.lockIdle targets
  if targets.any fun t => (s.runningCore t).isSome then
    let (executing, own, s') := s'.lockExecuting caller targets
    let (interrupted, s') := s'.deliverIpis
    (⟨idle ++ executing, [], interrupted, skipped⟩, if own then s'.reschedule caller else s')
  else (⟨idle, [], [], skipped⟩, s')

/-- Handles of a process whose object is of the class; all of them if none is given. -/
def handlesOf (s : State) (process : Process) (class? : Option ObjectClass) : List Handle :=
  (process.handles.entries.filter fun (_, o) =>
    match class? with
    | none => true
    | some c => (s.object? o).any fun object => object.body.classOf = c).map (·.1)

def controlTarget (s : State) (caller : Caller) (p : ProcessId) :
    ControlOp → Except Error ControlOutput × State
  | .listHandles class? =>
    match s.process? p with
    | none => (.error .invalidHandle, s)
    | some process => (.ok (.handles (s.handlesOf process class?)), s)
  | .forceRwx =>
    if s.processes.contains p then (.ok .done, s.forceRwx p) else (.error .invalidHandle, s)
  | .memoryChangeEvent =>
    if p ≠ caller.process then (.error .invalidHandle, s)
    else match s.memoryChangeEvent p with
      | (.error e, s) => (.error e, s)
      | (.ok event, s) =>
        let s := s.modifyProcess p fun process =>
          { process with flags := { process.flags with signalOnLayoutChange := true } }
        let (handle, s) := s.openHandle caller.process event
        (handle.map .handle, s)
  | .signalOnExit =>
    if s.processes.contains p then
      (.ok .done, s.modifyProcess p fun process =>
        { process with flags := { process.flags with signalOnExit := true } })
    else (.error .invalidHandle, s)
  | .physicalAddress virtual => ((s.translate p virtual).map .physicalAddress, s)
  | .schedule .lock filter =>
    let (report, s) := s.lockThreads caller.core p filter
    (.ok (.schedule report), s)
  | .schedule .unlock filter =>
    let (report, s) := s.unlockThreads p filter
    (.ok (.schedule report), s)

def control (s : State) (caller : Caller) (target : Handle) (op : ControlOp) :
    Except Error ControlOutput × State :=
  s.withProcess caller.process target fun p s => s.controlTarget caller p op

def controlRaw (s : State) (caller : Caller) (target : Handle) (code arg : UInt32) :
    Except Error ControlOutput × State :=
  match ControlOp.decode code arg none with
  | .error e => (.error e, s)
  | .ok op => s.control caller target op

end State
end PluginSlot.Kernel
