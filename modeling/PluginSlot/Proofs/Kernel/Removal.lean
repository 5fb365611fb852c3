import PluginSlot.Proofs.Kernel.Ownership
import PluginSlot.Proofs.Kernel.Schedule

/-!
What becomes of the threads of a process that is destroyed. First all of them stop, and the cores that
executed them go on with others; then they are removed one after the other, and no core schedules
again until all are gone.
-/
namespace PluginSlot.Kernel.State

/-- Nothing is left of a thread: no entry, no place in a queue, no core, and no mutex. -/
structure Gone (s : State) (t : ThreadId) : Prop where
  thread : s.thread? t = none
  unqueued : s.Unqueued t
  idle : ∀ c core, s.core? c = some core → core.current ≠ some t
  mutex : s.syncOwner ≠ some t

section
variable {s s' : State} {p : ProcessId} {process : Process} {t u : ThreadId}

theorem Gone.frame (h : s.Gone t) (hthreading : s'.threading = s.threading)
    (hmutex : s'.syncOwner = s.syncOwner) : s'.Gone t := by
  refine ⟨(thread?_of_threading hthreading t).trans h.thread, fun c core hc => ?_,
    fun c core hc => ?_, hmutex ▸ h.mutex⟩
  · exact h.unqueued c core ((core?_of_threading hthreading c).symm.trans hc)
  · exact h.idle c core ((core?_of_threading hthreading c).symm.trans hc)

/-- A thread is removed from the list, from every core, and from the mutex. -/
theorem gone_removeThread (s : State) (t : ThreadId) : (s.removeThread t).Gone t := by
  refine ⟨thread?_removeThread_self s t, fun c core hc => ?_, fun c core hc => ?_, ?_⟩
  · rw [core?_removeThread] at hc
    obtain ⟨old, -, rfl⟩ := Option.map_eq_some_iff.mp hc
    simp [Core.drop]
  · rw [core?_removeThread] at hc
    obtain ⟨old, -, rfl⟩ := Option.map_eq_some_iff.mp hc
    exact fun hcurrent => (Core.current_forget_eq_some.mp hcurrent).2 rfl
  · show (if s.syncOwner = some t then none else s.syncOwner) ≠ some t
    split
    · exact (Option.some_ne_none t).symm
    next hne => exact hne

/-- A thread that is gone stays gone when others are removed. -/
theorem Gone.removeThread (h : s.Gone t) (u : ThreadId) : (s.removeThread u).Gone t := by
  by_cases hu : u = t
  · subst hu
    exact gone_removeThread s u
  · refine ⟨(thread?_removeThread_ne s hu).trans h.thread, fun c core hc => ?_, fun c core hc => ?_, ?_⟩
    · rw [core?_removeThread] at hc
      obtain ⟨old, hold, rfl⟩ := Option.map_eq_some_iff.mp hc
      rw [Core.queue_forget]
      exact fun hmem => h.unqueued c old hold (List.mem_filter.mp hmem).1
    · rw [core?_removeThread] at hc
      obtain ⟨old, hold, rfl⟩ := Option.map_eq_some_iff.mp hc
      exact fun hcurrent => h.idle c old hold (Core.current_forget_eq_some.mp hcurrent).1
    · show (if s.syncOwner = some u then none else s.syncOwner) ≠ some t
      split
      · exact (Option.some_ne_none t).symm
      · exact h.mutex

theorem Gone.foldl_removeThread (h : s.Gone t) (ts : List ThreadId) :
    (ts.foldl State.removeThread s).Gone t := by
  induction ts generalizing s with
  | nil => exact h
  | cons u ts ih => exact ih (h.removeThread u)

theorem gone_foldl_removeThread {ts : List ThreadId} (ht : t ∈ ts) :
    (ts.foldl State.removeThread s).Gone t := by
  induction ts generalizing s with
  | nil => cases ht
  | cons u ts ih =>
    rcases List.mem_cons.mp ht with rfl | ht
    · exact (gone_removeThread s t).foldl_removeThread ts
    · exact ih ht

theorem thread?_foldl_removeThread {ts : List ThreadId} (ht : t ∉ ts) :
    (ts.foldl State.removeThread s).thread? t = s.thread? t := by
  induction ts generalizing s with
  | nil => rfl
  | cons u ts ih =>
    obtain ⟨hne, hrest⟩ := not_or.mp (List.mem_cons.not.mp ht)
    exact (ih hrest).trans (thread?_removeThread_ne s (Ne.symm hne))

theorem changes_setThreadState (s : State) (t : ThreadId) (state : ThreadState) :
    s.Changes (Thread.changeIf (· = t) fun thread =>
      { thread with mask := thread.mask.withState state }) (s.setThreadState t state).2 := by
  rw [setThreadState]
  split
  next ht => exact changes_self s t (by simp [ht])
  next thread ht =>
    have hmask := changes_setMask_of_eq s t ht (m := thread.mask.withState state)
      (fun thread => { thread with mask := thread.mask.withState state }) rfl
    dsimp only
    split
    · exact hmask.trans (changes_enqueue _ t)
    · dsimp only
      split
      · exact (hmask.trans (changes_evict _ t)).trans (changes_reschedule _ _)
      · exact hmask.trans (changes_evict _ t)

theorem thread?_foldl_setThreadState {ts : List ThreadId} (ht : t ∉ ts) (state : ThreadState) :
    (ts.foldl (fun s u => (s.setThreadState u state).2) s).thread? t = s.thread? t := by
  induction ts generalizing s with
  | nil => rfl
  | cons u ts ih =>
    obtain ⟨hne, hrest⟩ := not_or.mp (List.mem_cons.not.mp ht)
    refine (ih hrest).trans ((changes_setThreadState s u state).thread?_of_same fun thread => ?_)
    rw [Thread.changeIf, if_neg (by simpa using hne)]

/-- A process that begins to exit stops its own threads only. -/
theorem thread?_beginExit (ht : s.ownerOf t ≠ some p) :
    (s.beginExit p).2.thread? t = s.thread? t := by
  rw [beginExit]
  split
  · rfl
  · exact thread?_foldl_setThreadState (fun hmem => ht (mem_threadsOf.mp hmem)) .terminating

theorem syncOwner_dropReference (s : State) (o : ObjectId) :
    (s.dropReference o).2.syncOwner = s.syncOwner := by
  obtain ⟨-, h⟩ | ⟨_, -, -, h⟩ | ⟨_, -, -, h⟩ := dropReference_cases s o
  · rw [h]
  · rw [h]
    rfl
  · rw [h]

theorem syncOwner_release (s : State) (o : ObjectId) : (s.release o).syncOwner = s.syncOwner :=
  release_keeps (P := fun s' => s'.syncOwner = s.syncOwner)
    (fun s o h => (syncOwner_dropReference s o).trans h) (fun _ _ h => h) rfl o

theorem Gone.foldl_release (h : s.Gone t) (os : List ObjectId) : (os.foldl release s).Gone t := by
  induction os generalizing s with
  | nil => exact h
  | cons o os ih => exact ih (h.frame (threading_release s o) (syncOwner_release s o))

/-- When a process is destroyed, nothing is left of its threads, and those of others stay as they
were. -/
theorem destroyProcess_threads (hp : s.process? p = some process) (hlive : process.reaped = false) :
    (∀ t, s.ownerOf t = some p → (s.destroyProcess p).2.Gone t) ∧
      ∀ t, s.ownerOf t ≠ some p → (s.destroyProcess p).2.thread? t = s.thread? t := by
  have hrun := congrArg Prod.snd (destroyProcess_eq hp hlive)
  have hmem (t : ThreadId) : t ∈ (s.beginExit p).2.threadsOf p ↔ s.ownerOf t = some p := by
    rw [mem_threadsOf, ownerOf_beginExit]
  rw [hrun]
  constructor
  · intro t ht
    have hburied : (s.bury p).Gone t :=
      (gone_foldl_removeThread ((hmem t).mpr ht)).frame rfl rfl
    exact hburied.foldl_release _
  · intro t ht
    rw [thread?_of_threading (threading_foldl_release _ _)]
    exact (thread?_foldl_removeThread (mt (hmem t).mp ht)).trans (thread?_beginExit ht)

end
end PluginSlot.Kernel.State
