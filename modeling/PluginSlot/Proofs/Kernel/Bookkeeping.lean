import PluginSlot.Proofs.Kernel.Release
import PluginSlot.Proofs.Kernel.Locking

/-!
What the scheduler leaves alone: records, objects, and whose each thread is. To follow references
or owners through a run it is enough to look at the operations that make or end something.
-/
namespace PluginSlot.Kernel

/-- The books of a kernel, and the owner of each thread. -/
structure Holdings extends State.Books where
  owners : ThreadId → Option ProcessId

namespace State

def ownerOf (s : State) (t : ThreadId) : Option ProcessId := (s.thread? t).map (·.owner)

def holdings (s : State) : Holdings := ⟨s.books, s.ownerOf⟩

theorem ownerOf_eq_some_iff {s : State} {t : ThreadId} {p : ProcessId} :
    s.ownerOf t = some p ↔ ∃ thread, s.thread? t = some thread ∧ thread.owner = p := by
  simp [ownerOf, Option.map_eq_some_iff]

section
variable {s s' : State}

theorem books_of_holdings (h : s'.holdings = s.holdings) : s'.books = s.books :=
  congrArg Holdings.toBooks h

theorem process?_of_books (h : s'.books = s.books) (p : ProcessId) :
    s'.process? p = s.process? p := by
  have hprocesses : s'.processes = s.processes := congrArg Books.processes h
  rw [process?, process?, hprocesses]

theorem object?_of_books (h : s'.books = s.books) (o : ObjectId) : s'.object? o = s.object? o := by
  have hobjects : s'.objects = s.objects := congrArg Books.objects h
  rw [object?, object?, hobjects]

end

section
variable (s : State)

theorem books_modifyProcess (p : ProcessId) (f : Process → Process) :
    (s.modifyProcess p f).books = { s.books with processes := s.books.processes.modify p f } := rfl

theorem modifyProcess_modifyProcess (p : ProcessId) (f g : Process → Process) :
    (s.modifyProcess p f).modifyProcess p g = s.modifyProcess p fun process => g (f process) := by
  simp only [modifyProcess, Table.modify_modify]

theorem modifyObject_modifyObject (o : ObjectId) (f g : Object → Object) :
    (s.modifyObject o f).modifyObject o g = s.modifyObject o fun object => g (f object) := by
  simp only [modifyObject, Table.modify_modify]

theorem ownerOf_modifyThread (t u : ThreadId) {f : Thread → Thread}
    (hf : ∀ thread, (f thread).owner = thread.owner) :
    (s.modifyThread t f).ownerOf u = s.ownerOf u := by
  by_cases h : t = u
  · subst h
    simp only [ownerOf, thread?_modifyThread_self, Option.map_map]
    congr 1
    funext thread
    exact hf thread
  · rw [ownerOf, ownerOf, thread?_modifyThread_ne s h]

/-- A thread keeps its owner whatever else changes about it. -/
theorem holdings_modifyThread (t : ThreadId) {f : Thread → Thread}
    (hf : ∀ thread, (f thread).owner = thread.owner) :
    (s.modifyThread t f).holdings = s.holdings := by
  have howners : (s.modifyThread t f).ownerOf = s.ownerOf :=
    funext fun u => ownerOf_modifyThread s t u hf
  exact congrArg (Holdings.mk s.books) howners

@[simp] theorem holdings_setMask (t : ThreadId) (m : Mask) :
    (s.setMask t m).holdings = s.holdings := holdings_modifyThread s t fun _ => rfl

@[simp] theorem holdings_modifyCore (c : CoreId) (f : Core → Core) :
    (s.modifyCore c f).holdings = s.holdings := rfl

@[simp] theorem holdings_evict (t : ThreadId) : (s.evict t).holdings = s.holdings := rfl

@[simp] theorem holdings_setCurrent (c : CoreId) (t : Option ThreadId) :
    (s.setCurrent c t).holdings = s.holdings := rfl

@[simp] theorem holdings_raiseIpi (c : CoreId) : (s.raiseIpi c).holdings = s.holdings := rfl

@[simp] theorem holdings_enqueue (t : ThreadId) : (s.enqueue t).holdings = s.holdings := by
  rw [enqueue]
  split
  · rfl
  · split <;> rfl

@[simp] theorem holdings_enqueueOption (t : Option ThreadId) :
    (s.enqueueOption t).holdings = s.holdings := by
  cases t with
  | none => rfl
  | some t => exact holdings_enqueue s t

@[simp] theorem holdings_popRunnable (c : CoreId) : (s.popRunnable c).2.holdings = s.holdings := by
  rw [popRunnable]
  split <;> rfl

@[simp] theorem holdings_reschedule (c : CoreId) : (s.reschedule c).holdings = s.holdings := by
  rw [reschedule]
  split
  · rfl
  · simp

@[simp] theorem holdings_tick (c : CoreId) : (s.tick c).2.holdings = s.holdings := by
  rw [tick]
  split
  · rfl
  · dsimp only
    split <;> simp

@[simp] theorem holdings_runOnCore (t : ThreadId) : (s.runOnCore t).2.holdings = s.holdings := by
  rw [runOnCore]
  split
  · rfl
  · split
    · rfl
    · dsimp only
      split <;> simp

@[simp] theorem holdings_setTls (t : ThreadId) (slot : Nat) (value : UInt32) :
    (s.setTls t slot value).2.holdings = s.holdings := by
  rw [setTls]
  split
  · rfl
  · split
    · rfl
    · exact holdings_modifyThread s t fun _ => rfl

@[simp] theorem holdings_setThreadState (t : ThreadId) (state : ThreadState) :
    (s.setThreadState t state).2.holdings = s.holdings := by
  rw [setThreadState]
  split
  · rfl
  · dsimp only
    split
    · simp
    · dsimp only
      split <;> simp

@[simp] theorem holdings_setDebugLock (t : ThreadId) (locked : Bool) :
    (s.setDebugLock t locked).2.holdings = s.holdings := by
  have hmask (m : Mask) :
      (if m.isRunnable then (s.setMask t m).enqueue t else (s.setMask t m).evict t).holdings =
        s.holdings := by
    split <;> simp
  rw [setDebugLock]
  split
  · rfl
  · exact hmask _

@[simp] theorem holdings_setPluginLock (t : ThreadId) :
    (s.setPluginLock t).2.holdings = s.holdings := by
  rw [setPluginLock]
  split
  · rfl
  · split <;> simp

@[simp] theorem holdings_clearPluginLock (t : ThreadId) :
    (s.clearPluginLock t).2.holdings = s.holdings := by
  rw [clearPluginLock]
  split
  · rfl
  · split <;> simp

@[simp] theorem holdings_interruptFor (caller home : CoreId) :
    (s.interruptFor caller home).holdings = s.holdings := by
  rw [interruptFor]
  split <;> simp

end

section
variable {s : State}

theorem holdings_foldl {α : Type} {f : State → α → State}
    (hf : ∀ s a, (f s a).holdings = s.holdings) (l : List α) :
    (l.foldl f s).holdings = s.holdings := by
  induction l generalizing s with
  | nil => rfl
  | cons a l ih => exact ih.trans (hf s a)

@[simp] theorem holdings_deliverIpis : s.deliverIpis.2.holdings = s.holdings :=
  holdings_foldl (fun s c => by simp [deliverIpi]) _

theorem holdings_unlockEach (ts : List ThreadId) : (s.unlockEach ts).2.holdings = s.holdings := by
  induction ts generalizing s with
  | nil => rfl
  | cons t ts ih => exact ih.trans (holdings_clearPluginLock s t)

theorem holdings_lockIdle (ts : List ThreadId) : (s.lockIdle ts).2.holdings = s.holdings := by
  induction ts generalizing s with
  | nil => rfl
  | cons t ts ih =>
    simp only [lockIdle]
    apply ih.trans
    split
    · rfl
    · exact holdings_setPluginLock s t

theorem holdings_lockExecuting (caller : CoreId) (ts : List ThreadId) :
    (s.lockExecuting caller ts).2.2.holdings = s.holdings := by
  induction ts generalizing s with
  | nil => rfl
  | cons t ts ih =>
    have hlock := holdings_setPluginLock s t
    rw [lockExecuting]
    split
    · exact ih
    · dsimp only
      split
      · exact ih.trans ((holdings_interruptFor _ _ _).trans hlock)
      · exact ih.trans hlock

@[simp] theorem holdings_unlockThreads (p : ProcessId) (filter : Option ThreadFilter) :
    (s.unlockThreads p filter).2.holdings = s.holdings := holdings_unlockEach _

@[simp] theorem holdings_lockThreads (c : CoreId) (p : ProcessId) (filter : Option ThreadFilter) :
    (s.lockThreads c p filter).2.holdings = s.holdings := by
  have hidle := holdings_lockIdle (s := s) (s.scheduleTargets p filter)
  rw [lockThreads]
  dsimp only
  split
  · have hheld : ∀ s' : State, s'.holdings = s.holdings →
        (s'.lockExecuting c (s.scheduleTargets p filter)).2.2.deliverIpis.2.holdings = s.holdings :=
      fun s' h => (holdings_deliverIpis.trans (holdings_lockExecuting c _)).trans h
    split
    · exact (holdings_reschedule _ c).trans (hheld _ hidle)
    · exact hheld _ hidle
  · exact hidle

/-- The threads of a process that begins to exit stay its own. -/
theorem holdings_beginExit (p : ProcessId) :
    (s.beginExit p).2.holdings = (s.modifyProcess p ({ · with exiting := true })).holdings ∨
      s.process? p = none ∧ (s.beginExit p).2 = s := by
  rw [beginExit]
  split
  next h => exact .inr ⟨h, rfl⟩
  next => exact .inl (holdings_foldl (fun s t => holdings_setThreadState s t .terminating) _)

@[simp] theorem books_createThread (p : ProcessId) (c : CoreId) :
    (s.createThread p c).2.books = s.books := by
  rw [createThread]
  split <;> rfl

@[simp] theorem books_removeThread (t : ThreadId) : (s.removeThread t).books = s.books := rfl

end
end State
end PluginSlot.Kernel
