import PluginSlot.Proofs.Kernel.Frame
import PluginSlot.Proofs.Kernel.Moves

/-!
Threads are placed after every history. Only a thread taken out of the queues by hand can go
astray.
-/
namespace PluginSlot.Kernel

theorem Core.mem_threads_forget {core : Core} {t u : ThreadId} :
    u ∈ ((core.drop t).forget t).threads ↔ u ∈ core.threads ∧ u ≠ t := by
  by_cases h : core.current = some t
  · simp only [mem_threads, forget, drop, h, if_true, List.mem_filter, decide_eq_true_eq]
    grind
  · simp only [mem_threads, forget, drop, h, if_false, List.mem_filter, decide_eq_true_eq]
    grind

@[simp] theorem Core.queue_forget (core : Core) (t : ThreadId) :
    (core.forget t).queue = core.queue := by
  rw [forget]
  split <;> rfl

@[simp] theorem Core.ipiPending_forget (core : Core) (t : ThreadId) :
    (core.forget t).ipiPending = core.ipiPending := by
  rw [forget]
  split <;> rfl

theorem Core.current_forget_eq_some {core : Core} {t u : ThreadId} :
    (core.forget t).current = some u ↔ core.current = some u ∧ u ≠ t := by
  rw [forget]
  split <;> grind

theorem Core.nodup_threads_forget {core : Core} (h : core.threads.Nodup) (t : ThreadId) :
    (core.forget t).threads.Nodup := by
  rw [forget]
  split
  · exact nodup_threads.mpr ⟨(nodup_threads.mp h).1, fun u hu => by cases hu⟩
  · exact h

namespace State

variable {s s' : State} {c : CoreId} {core : Core} {t : ThreadId} {A : Set ThreadId}

theorem thread?_of_threading (h : s'.threading = s.threading) (t : ThreadId) :
    s'.thread? t = s.thread? t := by
  have ht : s'.threads = s.threads := congrArg Threading.threads h
  rw [thread?, thread?, ht]

theorem core?_of_threading (h : s'.threading = s.threading) (c : CoreId) :
    s'.core? c = s.core? c := by
  have hc : s'.cores = s.cores := congrArg Threading.cores h
  rw [core?, core?, hc]

theorem Placed.frame (h : s'.threading = s.threading) (hp : s.Placed A) : s'.Placed A := by
  refine hp.congr (core?_of_threading h) (fun t => ?_) (fun t => ?_) (congrArg Threading.next h)
  · rw [homeOf, homeOf, thread?_of_threading h]
  · rw [mayRun, mayRun, thread?_of_threading h]

/-- Add a thread under the next number. -/
def addThread (s : State) (thread : Thread) : State :=
  { s with nextThread := s.nextThread + 1, threads := s.threads.insert ⟨s.nextThread⟩ thread }

theorem thread?_addThread_self (s : State) (thread : Thread) :
    (s.addThread thread).thread? ⟨s.nextThread⟩ = some thread := Table.get?_insert_self ..

theorem thread?_addThread_ne (s : State) (thread : Thread) (h : t ≠ ⟨s.nextThread⟩) :
    (s.addThread thread).thread? t = s.thread? t := Table.get?_insert_ne _ (Ne.symm h) _

theorem Placed.ne_next (hp : s.Placed A) (h : s.homeOf t = some c) : t ≠ ⟨s.nextThread⟩ := by
  rintro rfl
  exact absurd (hp.known ⟨s.nextThread⟩ (by simp [h])) (lt_irrefl _)

theorem Placed.addThread (hp : s.Placed A) {thread : Thread}
    (hc : (s.core? thread.core).isSome = true) (hstop : thread.mask.isRunnable = false) :
    (s.addThread thread).Placed A := by
  have hhome (u : ThreadId) (hu : u ≠ ⟨s.nextThread⟩) :
      (s.addThread thread).homeOf u = s.homeOf u := by
    rw [homeOf, homeOf, thread?_addThread_ne s thread hu]
  have hrun (u : ThreadId) (hu : u ≠ ⟨s.nextThread⟩) :
      (s.addThread thread).mayRun u = s.mayRun u := by
    rw [mayRun, mayRun, thread?_addThread_ne s thread hu]
  refine ⟨fun d core hd => ?_, fun u d hu => ?_, fun u hu => ?_, fun d core u hd hh hr hn => ?_⟩
  · have ho := hp.ordered d core hd
    refine ⟨ho.nodup, fun u hu => ?_, fun u hu => ?_⟩
    · exact (hhome u (hp.ne_next (ho.home u hu))).trans (ho.home u hu)
    · exact (hrun u (hp.ne_next (hp.home_of_queued hd hu))).trans (ho.mayRun u hu)
  · by_cases h : u = ⟨s.nextThread⟩
    · rw [h, homeOf, thread?_addThread_self] at hu
      cases hu
      exact hc
    · exact hp.home u d ((hhome u h).symm.trans hu)
  · by_cases h : u = ⟨s.nextThread⟩
    · rw [h]
      exact Nat.lt_succ_self _
    · exact Nat.lt_succ_of_lt (hp.known u (by rwa [hhome u h] at hu))
  · by_cases h : u = ⟨s.nextThread⟩
    · rw [h, mayRun, thread?_addThread_self, Option.any_some, hstop] at hr
      cases hr
    · rw [hrun u h] at hr
      exact hp.present d core u hd ((hhome u h).symm.trans hh) hr hn

theorem Placed.createThread (hp : s.Placed A) (p : ProcessId) (c : CoreId) :
    (s.createThread p c).2.Placed A := by
  rw [State.createThread]
  split
  case isTrue => exact hp
  case isFalse hok =>
    have hlt : c.val < s.cores.length := by
      simp only [Bool.or_eq_true, decide_eq_true_eq, not_or, not_le, ge_iff_le] at hok
      exact hok.2
    exact hp.addThread (by simp [core?, hlt]) Mask.isRunnable_ofState_paused

theorem Placed.setTls (hp : s.Placed A) (t : ThreadId) (slot : Nat) (value : UInt32) :
    (s.setTls t slot value).2.Placed A := by
  rw [State.setTls]
  split
  · exact hp
  · split
    · exact hp
    · -- only thread-local words change
      refine hp.congr (fun _ => rfl) (fun u => ?_) (fun u => ?_) rfl
      all_goals
        by_cases h : t = u
        · subst h
          cases ht : s.thread? t <;> simp [homeOf, mayRun, ht]
        · simp [homeOf, mayRun, thread?_modifyThread_ne s h]

theorem core?_removeThread (s : State) (t : ThreadId) (c : CoreId) :
    (s.removeThread t).core? c = (s.core? c).map fun core => (core.drop t).forget t := by
  simp [core?, removeThread, evict, Function.comp_def]

theorem thread?_removeThread_self (s : State) (t : ThreadId) : (s.removeThread t).thread? t = none :=
  Table.get?_erase_self ..

theorem thread?_removeThread_ne (s : State) {t u : ThreadId} (h : t ≠ u) :
    (s.removeThread t).thread? u = s.thread? u := Table.get?_erase_ne _ h

theorem Placed.removeThread (hp : s.Placed A) (t : ThreadId) : (s.removeThread t).Placed A := by
  have hgone : (s.removeThread t).homeOf t = none := by rw [homeOf, thread?_removeThread_self]; rfl
  have hhome (u : ThreadId) (hu : u ≠ t) : (s.removeThread t).homeOf u = s.homeOf u := by
    rw [homeOf, homeOf, thread?_removeThread_ne s (Ne.symm hu)]
  have hrun (u : ThreadId) (hu : u ≠ t) : (s.removeThread t).mayRun u = s.mayRun u := by
    rw [mayRun, mayRun, thread?_removeThread_ne s (Ne.symm hu)]
  have hne (u : ThreadId) (h : ((s.removeThread t).homeOf u).isSome = true) : u ≠ t := by
    rintro rfl
    simp [hgone] at h
  refine ⟨fun c core hc => ?_, fun u c hu => ?_, fun u hu => ?_, fun c core u hc hh hr hn => ?_⟩
  · rw [core?_removeThread] at hc
    obtain ⟨old, ho, rfl⟩ := Option.map_eq_some_iff.mp hc
    have hord := (hp.ordered c old ho).drop t
    refine ⟨Core.nodup_threads_forget hord.nodup t, fun u hu => ?_, fun u hu => ?_⟩
    · obtain ⟨hin, hu⟩ := Core.mem_threads_forget.mp hu
      exact (hhome u hu).trans ((hp.ordered c old ho).home u hin)
    · have hu' : u ∈ ((old.drop t).forget t).threads := Core.mem_threads.mpr (.inl hu)
      rw [Core.queue_forget] at hu
      exact (hrun u (Core.mem_threads_forget.mp hu').2).trans (hord.mayRun u hu)
  · rw [core?_removeThread, Option.isSome_map]
    have hu' := hne u (by simp [hu])
    exact hp.home u c ((hhome u hu').symm.trans hu)
  · exact hp.known u (by rwa [hhome u (hne u hu)] at hu)
  · rw [core?_removeThread] at hc
    obtain ⟨old, ho, rfl⟩ := Option.map_eq_some_iff.mp hc
    have hu := hne u (by simp [hh])
    rw [hrun u hu] at hr
    exact Core.mem_threads_forget.mpr ⟨hp.present c old u ho ((hhome u hu).symm.trans hh) hr hn, hu⟩

theorem Placed.lockIdle (hp : s.Placed A) (ts : List ThreadId) : (s.lockIdle ts).2.Placed A := by
  induction ts generalizing s with
  | nil => exact hp
  | cons t ts ih =>
    simp only [State.lockIdle]
    split
    · exact ih hp
    · exact ih (hp.setPluginLock t)

theorem Placed.interruptFor (hp : s.Placed A) (caller home : CoreId) :
    (s.interruptFor caller home).Placed A := by
  rw [State.interruptFor]
  split
  · exact hp
  · exact (hp.raiseIpi caller).raiseIpi home

theorem Placed.lockExecuting (hp : s.Placed A) (caller : CoreId) (ts : List ThreadId) :
    (s.lockExecuting caller ts).2.2.Placed A := by
  induction ts generalizing s with
  | nil => exact hp
  | cons t ts ih =>
    rw [State.lockExecuting]
    split
    · exact ih hp
    · have hheld := hp.setPluginLock t
      dsimp only
      split
      · exact ih (hheld.interruptFor caller _)
      · exact ih hheld

theorem Placed.lockThreads (hp : s.Placed A) (caller : CoreId) (p : ProcessId)
    (filter : Option ThreadFilter) : (s.lockThreads caller p filter).2.Placed A := by
  have hidle := hp.lockIdle (s.scheduleTargets p filter)
  simp only [State.lockThreads]
  split
  · have hrest := (hidle.lockExecuting caller (s.scheduleTargets p filter)).deliverIpis
    dsimp only
    split
    · exact hrest.reschedule caller
    · exact hrest
  · exact hidle

theorem placed_stable (A : Set ThreadId) : Stable (Placed A) where
  frame := Placed.frame
  createThread p c hp := hp.createThread p c
  setTls t slot value hp := hp.setTls t slot value
  setThreadState t state hp := hp.setThreadState t state
  removeThread t hp := hp.removeThread t
  enqueue t hp := (hp.mono (Set.subset_insert t A)).enqueue
  runOnCore t hp := hp.runOnCore t
  reschedule c hp := hp.reschedule c
  tick c hp := hp.tick c
  raiseIpi c hp := hp.raiseIpi c
  deliverIpis hp := hp.deliverIpis
  clearPluginLock t hp := hp.clearPluginLock t
  lockThreads c p filter hp := hp.lockThreads c p filter

/-- The threads that a history takes out of the queues by hand. -/
def strays (ops : List Operation) : Set ThreadId := {t | .evict t ∈ ops}

theorem Placed.run (hp : s.Placed A) (op : Operation) : (op.run s).2.Placed (A ∪ strays [op]) := by
  have hp' := hp.mono (Set.subset_union_left : A ⊆ A ∪ strays [op])
  refine (placed_stable _).run op hp' fun hmanual => ?_
  cases op with
  | setDebugLock t locked => exact hp'.setDebugLock t locked
  | setPluginLock t => exact hp'.setPluginLock t
  | evict t => exact (hp.evict t).mono (by simp [strays])
  | _ => cases hmanual

theorem placed_boot (cores : Nat) : (boot cores).Placed ∅ := by
  have hidle (c : CoreId) (core : Core) (h : (boot cores).core? c = some core) : core = .idle :=
    (List.mem_replicate.mp (List.mem_of_getElem? h)).2
  have hnone (t : ThreadId) : (boot cores).homeOf t = none := rfl
  refine ⟨fun c core hc => ?_, fun t c ht => ?_, fun t ht => ?_, fun c core t _ hh => ?_⟩
  · cases hidle c core hc
    exact ⟨List.nodup_nil, fun t ht => (by cases ht), fun t ht => (by cases ht)⟩
  · cases (hnone t).symm.trans ht
  · simp [hnone] at ht
  · cases (hnone t).symm.trans hh

theorem Placed.runAll (hp : s.Placed A) (ops : List Operation) :
    (s.runAll ops).Placed (A ∪ strays ops) := by
  induction ops generalizing s A with
  | nil => exact hp.mono Set.subset_union_left
  | cons op ops ih =>
    refine (ih (hp.run op)).mono ?_
    rintro t ((ha | hs) | hs)
    · exact .inl ha
    · exact .inr (List.mem_cons.mpr (.inl (List.mem_singleton.mp hs)))
    · exact .inr (List.mem_cons_of_mem op hs)

end State
end PluginSlot.Kernel
