import PluginSlot.Kernel.State
/-!
Scheduling. Each core runs one thread and keeps the others that may run on it in a queue; a hold
or a change of state takes a thread out of the queue, and a core drops a thread that may no
longer run when it reschedules.
-/
namespace PluginSlot.Kernel

def Core.enqueue (c : Core) (t : ThreadId) : Core :=
  if t ∈ c.queue then c else { c with queue := c.queue ++ [t] }

def Core.drop (c : Core) (t : ThreadId) : Core :=
  { c with queue := c.queue.filter (· ≠ t) }

namespace State

/-- A thread that does not exist may not run. -/
def mayRun (s : State) (t : ThreadId) : Bool := (s.thread? t).any (·.mask.isRunnable)

/-- The first core that executes the thread. -/
def runningCore (s : State) (t : ThreadId) : Option CoreId :=
  (s.cores.findIdx? (·.current = some t)).map .mk

/-- Queue a thread on its core, unless it may not run, is queued there, or is executing. -/
def enqueue (s : State) (t : ThreadId) : State :=
  match s.thread? t with
  | none => s
  | some thread =>
    if !thread.mask.isRunnable || (s.runningCore t).isSome then s
    else s.modifyCore thread.core (·.enqueue t)

def evict (s : State) (t : ThreadId) : State := { s with cores := s.cores.map (·.drop t) }

/-- Take the first thread that may run off the queue of a core, with all before it. -/
def popRunnable (s : State) (c : CoreId) : Option ThreadId × State :=
  match s.core? c with
  | none => (none, s)
  | some core =>
    let waiting := core.queue.dropWhile fun t => !s.mayRun t
    (waiting.head?, s.modifyCore c ({ · with queue := waiting.tail }))

def setCurrent (s : State) (c : CoreId) (t : Option ThreadId) : State :=
  s.modifyCore c ({ · with current := t })

def currentOf (s : State) (c : CoreId) : Option ThreadId := (s.core? c).bind (·.current)

/-- Keep the current thread of a core if it may run; otherwise switch to the next. -/
def reschedule (s : State) (c : CoreId) : State :=
  if (s.currentOf c).any s.mayRun then s
  else
    let (next, s) := s.popRunnable c
    s.setCurrent c next

def enqueueOption (s : State) (t : Option ThreadId) : State :=
  match t with
  | none => s
  | some t => s.enqueue t

/-- Move the current thread of a core to the back of its queue and run the next one. -/
def tick (s : State) (c : CoreId) : Option ThreadId × State :=
  match s.core? c with
  | none => (none, s)
  | some core =>
    let (next, s) := (s.setCurrent c none).popRunnable c
    let s := s.enqueueOption core.current
    match next with
    | some t => (some t, s.setCurrent c (some t))
    | none =>
      let (next, s) := s.popRunnable c
      (next, s.setCurrent c next)

def runOnCore (s : State) (t : ThreadId) : Except Error Unit × State :=
  match s.thread? t with
  | none => (.error .invalidHandle, s)
  | some thread =>
    if !thread.mask.isRunnable then (.error .invalidHandle, s)
    else
      let s := s.evict t
      match s.core? thread.core with
      | none => (.error .invalidHandle, s)
      | some core => (.ok (), (s.setCurrent thread.core (some t)).enqueueOption core.current)

def raiseIpi (s : State) (c : CoreId) : State := s.modifyCore c ({ · with ipiPending := true })

def pendingCores (s : State) : List CoreId :=
  (s.cores.zipIdx.filter (·.1.ipiPending)).map fun e => ⟨e.2⟩

def deliverIpi (s : State) (c : CoreId) : State :=
  (s.modifyCore c fun core =>
    { core with ipiPending := false, ipisDelivered := core.ipisDelivered + 1 }).reschedule c

/-- Make every core that was asked to reschedule do so, lowest first. -/
def deliverIpis (s : State) : List CoreId × State :=
  (s.pendingCores, s.pendingCores.foldl deliverIpi s)

def setMask (s : State) (t : ThreadId) (m : Mask) : State :=
  s.modifyThread t ({ · with mask := m })

/-- Change the state of a thread; one that stops running frees its core. -/
def setThreadState (s : State) (t : ThreadId) (state : ThreadState) : Except Error Unit × State :=
  match s.thread? t with
  | none => (.error .invalidHandle, s)
  | some thread =>
    let mask := thread.mask.withState state
    let s := s.setMask t mask
    if mask.isRunnable then (.ok (), s.enqueue t)
    else
      let s := s.evict t
      (.ok (), if s.currentOf thread.core = some t then s.reschedule thread.core else s)

def setDebugLock (s : State) (t : ThreadId) (locked : Bool) : Except Error Unit × State :=
  match s.thread? t with
  | none => (.error .invalidHandle, s)
  | some thread =>
    let mask := if locked then thread.mask.set Mask.debugLock else thread.mask.clear Mask.debugLock
    let s := s.setMask t mask
    (.ok (), if mask.isRunnable then s.enqueue t else s.evict t)

/-- Set the loader's hold; false if it was set, or there is no such thread. -/
def setPluginLock (s : State) (t : ThreadId) : Bool × State :=
  match s.thread? t with
  | none => (false, s)
  | some thread =>
    if thread.mask.isPluginLocked then (false, s)
    else (true, (s.setMask t (thread.mask.set Mask.pluginLock)).evict t)

/-- Clear the loader's hold; false if it was clear, or there is no such thread. -/
def clearPluginLock (s : State) (t : ThreadId) : Bool × State :=
  match s.thread? t with
  | none => (false, s)
  | some thread =>
    if !thread.mask.isPluginLocked then (false, s)
    else (true, (s.setMask t (thread.mask.clear Mask.pluginLock)).enqueue t)

end State
end PluginSlot.Kernel
