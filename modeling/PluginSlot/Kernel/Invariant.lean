import PluginSlot.Kernel.Control
/-!
What should hold of a kernel between operations, and a checker that lists every breach.
-/
namespace PluginSlot.Kernel

inductive Violation where
  | missingOwner (t : ThreadId) (p : ProcessId)
  | missingCore (t : ThreadId) (c : CoreId)
  | unknownQueued (c : CoreId) (t : ThreadId)
  | ineligibleQueued (t : ThreadId) (c : CoreId) (mask : Mask)
  | queuedAway (t : ThreadId) (home c : CoreId)
  | queuedAndExecuting (t : ThreadId)
  | queuedOften (t : ThreadId) (times : Nat)
  | lost (t : ThreadId)
  | ineligibleCurrent (c : CoreId) (t : ThreadId)
  | unbalanced (o : ObjectId) (count expected : UInt32)
deriving DecidableEq, Repr

namespace Violation

def invariant : Violation → String
  | missingOwner _ _ | missingCore _ _ => "thread_ownership"
  | unknownQueued _ _ | ineligibleQueued _ _ _ | queuedAway _ _ _ | queuedAndExecuting _
  | queuedOften _ _ => "queue_eligibility"
  | lost _ => "no_lost_threads"
  | ineligibleCurrent _ _ => "current_is_eligible"
  | unbalanced _ _ _ => "reference_balance"

def description : Violation → String
  | missingOwner t p => s!"Thread {t.val} owned by non-existent process {p.val}"
  | missingCore t c => s!"Thread {t.val} homed on missing core {c.val}"
  | unknownQueued c t => s!"Core {c.val} queues unknown thread {t.val}"
  | ineligibleQueued t c mask =>
    s!"Thread {t.val} queued on core {c.val} with mask " ++ Text.hexPadded 4 mask.bits.toNat
  | queuedAway t home c =>
    s!"Thread {t.val} homed on core {home.val} but queued on core {c.val}"
  | queuedAndExecuting t => s!"Thread {t.val} is both queued and executing"
  | queuedOften t times => s!"Thread {t.val} queued {times} times"
  | lost t => s!"Runnable thread {t.val} is neither queued nor executing"
  | ineligibleCurrent c t =>
    s!"Core {c.val} executes ineligible thread {t.val} with no reschedule pending"
  | unbalanced o count expected =>
    s!"Object {o.val} has {count} references, expected {expected}"

end Violation

namespace State

/-- The owner of a thread has a record, and its core exists. -/
def ownershipViolations (s : State) : List Violation :=
  s.threads.entries.flatMap fun (t, thread) =>
    (if s.processes.contains thread.owner then [] else [.missingOwner t thread.owner]) ++
    (if (s.core? thread.core).isSome then [] else [.missingCore t thread.core])

def queuedViolations (s : State) (c : CoreId) (t : ThreadId) : List Violation :=
  match s.thread? t with
  | none => [.unknownQueued c t]
  | some thread =>
    (if thread.mask.isRunnable then [] else [.ineligibleQueued t c thread.mask]) ++
    (if thread.core = c then [] else [.queuedAway t thread.core c]) ++
    (if (s.runningCore t).isSome then [.queuedAndExecuting t] else [])

def indexedCores (s : State) : List (CoreId × Core) := s.cores.zipIdx.map fun e => (⟨e.2⟩, e.1)

/-- How often each thread is queued, over all cores. -/
def queueCounts (s : State) : Table ThreadId Nat :=
  (s.cores.flatMap (·.queue)).foldl
    (fun counts t => counts.insert t ((counts.get? t).getD 0 + 1)) .empty

/-- A queued thread may run, is queued once and on its core, and is not executing. -/
def queueViolations (s : State) : List Violation :=
  (s.indexedCores.flatMap fun (c, core) => core.queue.flatMap (s.queuedViolations c)) ++
  s.queueCounts.entries.filterMap fun (t, times) =>
    if times > 1 then some (.queuedOften t times) else none

/-- A thread that may run is queued on its core or executing. -/
def lostViolations (s : State) : List Violation :=
  s.threads.entries.filterMap fun (t, thread) =>
    if !thread.mask.isRunnable || (s.runningCore t).isSome ||
        (s.core? thread.core).any (t ∈ ·.queue) then none
    else some (.lost t)

/-- A core executes only a thread that may run, unless it was asked to reschedule. -/
def currentViolations (s : State) : List Violation :=
  s.indexedCores.filterMap fun (c, core) =>
    match core.current with
    | none => none
    | some t => if s.mayRun t || core.ipiPending then none else some (.ineligibleCurrent c t)

/-- The objects that process records refer to, by a handle or as their memory-change event. -/
def namedObjects (s : State) : List ObjectId :=
  s.processes.values.flatMap fun p => p.handles.slots.values ++ p.memoryChangeEvent.toList

/-- References that an object should have: one for each handle, one for each process record whose
memory-change event it is, and the kernel's own for a process that is not reaped. -/
def expectedReferences (s : State) (o : ObjectId) : Nat :=
  s.namedObjects.countP (· = o) +
  match s.object? o with
  | some ⟨.process p, _⟩ => if (s.process? p).any (!·.reaped) then 1 else 0
  | _ => 0

/-- They are counted in a word of the size of the count. -/
def expectedCount (s : State) (o : ObjectId) : UInt32 := .ofNat (s.expectedReferences o)

def balanceViolations (s : State) : List Violation :=
  s.objects.entries.filterMap fun (o, object) =>
    if object.count = s.expectedCount o then none
    else some (.unbalanced o object.count (s.expectedCount o))

def violations (s : State) : List Violation :=
  s.ownershipViolations ++ s.queueViolations ++ s.lostViolations ++ s.currentViolations ++
    s.balanceViolations

end State
end PluginSlot.Kernel
