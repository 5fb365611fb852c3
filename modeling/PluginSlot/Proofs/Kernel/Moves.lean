import PluginSlot.Proofs.Kernel.Masks
import PluginSlot.Proofs.Kernel.Placement

/-!
What the scheduler's operations do to the places of threads. Taking a thread out of the queues may
leave it astray; queueing it brings it back.
-/
namespace PluginSlot.Kernel

theorem Core.Ordered.drop {s : State} {c : CoreId} {core : Core} (ho : core.Ordered s c)
    (t : ThreadId) : (core.drop t).Ordered s c where
  nodup := Core.nodup_threads_drop ho.nodup t
  home u hu := ho.home u (Core.mem_threads_drop.mp hu).1
  mayRun u hu := ho.mayRun u (List.mem_filter.mp hu).1

theorem Core.Ordered.enqueue {s : State} {c : CoreId} {core : Core} {t : ThreadId}
    (ho : core.Ordered s c) (hhome : s.homeOf t = some c) (hrun : s.mayRun t = true)
    (hcur : core.current ≠ some t) : (core.enqueue t).Ordered s c where
  nodup := Core.nodup_threads_enqueue ho.nodup hcur
  home u hu := by
    rcases Core.mem_threads_enqueue.mp hu with hu | rfl
    · exact ho.home u hu
    · exact hhome
  mayRun u hu := by
    rcases Core.mem_queue_enqueue.mp hu with hu | rfl
    · exact ho.mayRun u hu
    · exact hrun

namespace State

variable {s s' : State} {c : CoreId} {core : Core} {t : ThreadId} {A B : Set ThreadId}

theorem Placed.congr (hp : s.Placed A) (hcore : ∀ c, s'.core? c = s.core? c)
    (hhome : ∀ t, s'.homeOf t = s.homeOf t) (hrun : ∀ t, s'.mayRun t = s.mayRun t)
    (hnext : s'.nextThread = s.nextThread) : s'.Placed A where
  ordered c core hc := by
    have ho := hp.ordered c core ((hcore c).symm.trans hc)
    exact ⟨ho.nodup, fun t ht => (hhome t).trans (ho.home t ht),
      fun t ht => (hrun t).trans (ho.mayRun t ht)⟩
  home t c ht := by
    rw [hcore]
    exact hp.home t c ((hhome t).symm.trans ht)
  known t ht := by
    rw [hnext]
    exact hp.known t (by rwa [hhome] at ht)
  present c core t hc hh hr := by
    rw [hcore] at hc
    rw [hhome] at hh
    rw [hrun] at hr
    exact hp.present c core t hc hh hr

/-- A thread is not astray if it is where it belongs. -/
theorem Placed.settle (hp : s.Placed (insert t A))
    (h : ∀ c core, s.core? c = some core → s.homeOf t = some c → s.mayRun t = true →
      t ∈ core.threads) : s.Placed A where
  ordered := hp.ordered
  home := hp.home
  known := hp.known
  present c core u hc hh hr hn := by
    by_cases hu : u = t
    · subst hu
      exact h c core hc hh hr
    · exact hp.present c core u hc hh hr (by simp [hu, hn])

theorem Placed.evict (hp : s.Placed A) (t : ThreadId) : (s.evict t).Placed (insert t A) where
  ordered c core hc := by
    obtain ⟨old, ho, rfl⟩ := Option.map_eq_some_iff.mp ((core?_evict t).symm.trans hc)
    obtain ⟨hn, hh, hr⟩ := (hp.ordered c old ho).drop t
    exact ⟨hn, hh, hr⟩
  home u c hu := by
    rw [core?_evict, Option.isSome_map]
    exact hp.home u c hu
  known := hp.known
  present c core u hc hh hr hn := by
    obtain ⟨old, ho, rfl⟩ := Option.map_eq_some_iff.mp ((core?_evict t).symm.trans hc)
    have hu : u ≠ t ∧ u ∉ A := by simpa using hn
    exact Core.mem_threads_drop.mpr ⟨hp.present c old u ho hh hr hu.2, fun h => absurd h hu.1⟩

/-- A thread waits nowhere. -/
def Unqueued (s : State) (t : ThreadId) : Prop := ∀ c core, s.core? c = some core → t ∉ core.queue

theorem unqueued_evict (s : State) (t : ThreadId) : (s.evict t).Unqueued t := by
  intro c core hc
  obtain ⟨old, -, rfl⟩ := Option.map_eq_some_iff.mp ((core?_evict t).symm.trans hc)
  simp [Core.drop]

theorem Placed.unqueued_of_not_mayRun (hp : s.Placed A) (h : s.mayRun t = false) :
    s.Unqueued t := by
  intro c core hc hm
  simp [(hp.ordered c core hc).mayRun t hm] at h

section setMask
variable (s : State) (t : ThreadId) (m : Mask)

@[simp] theorem core?_setMask (c : CoreId) : (s.setMask t m).core? c = s.core? c := rfl

theorem thread?_setMask (u : ThreadId) :
    (s.setMask t m).thread? u =
      if u = t then (s.thread? u).map ({ · with mask := m }) else s.thread? u := by
  by_cases h : u = t
  · subst h
    simp [setMask]
  · simp [h, setMask, thread?_modifyThread_ne s (Ne.symm h)]

@[simp] theorem homeOf_setMask (u : ThreadId) : (s.setMask t m).homeOf u = s.homeOf u := by
  rw [homeOf, homeOf, thread?_setMask]
  split
  · simp [Option.map_map, Function.comp_def]
  · rfl

theorem mayRun_setMask_ne {u : ThreadId} (h : u ≠ t) : (s.setMask t m).mayRun u = s.mayRun u := by
  rw [mayRun, mayRun, thread?_setMask, if_neg h]

theorem mayRun_setMask_self {thread : Thread} (h : s.thread? t = some thread) :
    (s.setMask t m).mayRun t = m.isRunnable := by
  simp [mayRun, thread?_setMask, h]

@[simp] theorem currentOf_setMask (c : CoreId) : (s.setMask t m).currentOf c = s.currentOf c := rfl

theorem evict_setMask (u : ThreadId) : (s.setMask t m).evict u = (s.evict u).setMask t m := rfl

end setMask

theorem Placed.setMask (hp : s.Placed (insert t A)) (m : Mask)
    (hm : m.isRunnable = true ∨ s.Unqueued t) : (s.setMask t m).Placed (insert t A) where
  ordered c core hc := by
    have ho := hp.ordered c core hc
    refine ⟨ho.nodup, fun u hu => (homeOf_setMask s t m u).trans (ho.home u hu), fun u hu => ?_⟩
    by_cases h : u = t
    · subst h
      obtain ⟨thread, ht, -⟩ := homeOf_eq_some.mp (hp.home_of_queued hc hu)
      rw [mayRun_setMask_self s u m ht]
      exact hm.resolve_right fun hq => hq c core hc hu
    · rw [mayRun_setMask_ne s t m h]
      exact ho.mayRun u hu
  home u c hu := hp.home u c ((homeOf_setMask s t m u).symm.trans hu)
  known u hu := hp.known u (by rwa [homeOf_setMask] at hu)
  present c core u hc hh hr hn := by
    have hu : u ≠ t := fun h => hn (by simp [h])
    rw [mayRun_setMask_ne s t m hu] at hr
    exact hp.present c core u hc ((homeOf_setMask s t m u).symm.trans hh) hr hn

/-- A thread that may not run any more is taken out of the queues. -/
theorem Placed.setMask_evict (hp : s.Placed A) {thread : Thread} (ht : s.thread? t = some thread)
    {m : Mask} (hm : m.isRunnable = false) : ((s.setMask t m).evict t).Placed A := by
  rw [evict_setMask]
  refine Placed.settle (t := t) ((hp.evict t).setMask m (.inr (unqueued_evict s t))) ?_
  intro c core _ _ hr
  have hstop : ((s.evict t).setMask t m).mayRun t = m.isRunnable :=
    mayRun_setMask_self (s.evict t) t m ht
  rw [hstop, hm] at hr
  cases hr

theorem Placed.enqueue (hp : s.Placed (insert t A)) : (s.enqueue t).Placed A := by
  cases ht : s.thread? t with
  | none =>
    simp only [State.enqueue, ht]
    exact hp.settle fun c core _ hh _ => by simp [homeOf, ht] at hh
  | some thread =>
    simp only [State.enqueue, ht]
    split
    case isTrue h =>
      refine hp.settle fun c core hc hh hr => ?_
      have hrun : (s.runningCore t).isSome = true := by
        have : thread.mask.isRunnable = true := by simpa [mayRun, ht] using hr
        simpa [this] using h
      obtain ⟨d, other, hd, hcur⟩ := runningCore_isSome.mp hrun
      have hsame : some c = some d := hh.symm.trans (hp.home_of_current hd hcur)
      cases hsame
      cases hc.symm.trans hd
      exact Core.mem_threads.mpr (.inr hcur)
    case isFalse h =>
      have hm : thread.mask.isRunnable = true ∧ (s.runningCore t).isSome = false := by simpa using h
      have hhome : s.homeOf t = some thread.core := by simp [homeOf, ht]
      obtain ⟨core, hc⟩ := hp.core_of_home hhome
      have hrun : s.mayRun t = true := by simp [mayRun, ht, hm.1]
      have hcur : core.current ≠ some t :=
        runningCore_eq_none.mp (Option.not_isSome_iff_eq_none.mp (by simp [hm.2])) _ _ hc
      rw [modifyCore_eq hc]
      refine hp.setCore hc ((hp.ordered _ core hc).enqueue hhome hrun hcur) (fun u hh hr hn => ?_)
        fun u hu hne => (Set.mem_insert_iff.mp hu).resolve_left fun h => hne (h ▸ hhome)
      refine Core.mem_threads_enqueue.mpr ?_
      by_cases hu : u = t
      · exact .inr hu
      · exact .inl (hp.present _ core u hc hh hr (by simp [hu, hn]))

/-- A change of mask, then the attempt to queue the thread. -/
theorem Placed.setMask_enqueue (hp : s.Placed A) {m : Mask}
    (hm : m.isRunnable = true ∨ s.Unqueued t) : ((s.setMask t m).enqueue t).Placed A :=
  ((hp.mono (Set.subset_insert t A)).setMask m hm).enqueue

theorem Placed.setThreadState (hp : s.Placed A) (t : ThreadId) (state : ThreadState) :
    (s.setThreadState t state).2.Placed A := by
  cases ht : s.thread? t with
  | none => simpa [State.setThreadState, ht] using hp
  | some thread =>
    simp only [State.setThreadState, ht]
    split
    case isTrue hm => exact hp.setMask_enqueue (.inl hm)
    case isFalse hm =>
      have hout := hp.setMask_evict ht (Bool.eq_false_iff.mpr hm)
      split
      · exact hout.reschedule thread.core
      · exact hout

theorem setDebugLock_eq {thread : Thread} (ht : s.thread? t = some thread) (locked : Bool) :
    (s.setDebugLock t locked).2 =
      if (thread.mask.withDebugLock locked).isRunnable then
        (s.setMask t (thread.mask.withDebugLock locked)).enqueue t
      else (s.setMask t (thread.mask.withDebugLock locked)).evict t := by
  cases locked <;> simp [setDebugLock, ht, Mask.withDebugLock]

theorem Placed.setDebugLock (hp : s.Placed A) (t : ThreadId) (locked : Bool) :
    (s.setDebugLock t locked).2.Placed A := by
  cases ht : s.thread? t with
  | none => simpa [State.setDebugLock, ht] using hp
  | some thread =>
    rw [setDebugLock_eq ht]
    split
    case isTrue hm => exact hp.setMask_enqueue (.inl hm)
    case isFalse hm => exact hp.setMask_evict ht (Bool.eq_false_iff.mpr hm)

theorem Placed.setPluginLock (hp : s.Placed A) (t : ThreadId) : (s.setPluginLock t).2.Placed A := by
  cases ht : s.thread? t with
  | none => simpa [State.setPluginLock, ht] using hp
  | some thread =>
    simp only [State.setPluginLock, ht]
    split
    · exact hp
    · exact hp.setMask_evict ht (Mask.isRunnable_eq_false_of_isPluginLocked (by simp))

theorem Placed.clearPluginLock (hp : s.Placed A) (t : ThreadId) :
    (s.clearPluginLock t).2.Placed A := by
  cases ht : s.thread? t with
  | none => simpa [State.clearPluginLock, ht] using hp
  | some thread =>
    simp only [State.clearPluginLock, ht]
    split
    case isTrue => exact hp
    case isFalse h =>
      have hheld : thread.mask.isPluginLocked = true := by simpa using h
      have hstop : s.mayRun t = false := by
        simp [mayRun, ht, Mask.isRunnable_eq_false_of_isPluginLocked hheld]
      exact hp.setMask_enqueue (.inr (hp.unqueued_of_not_mayRun hstop))

/-- Changes to the flags of a core move no thread. -/
theorem Placed.modifyCore (hp : s.Placed A) (c : CoreId) {f : Core → Core}
    (hf : ∀ core, (f core).threads = core.threads ∧ (f core).queue = core.queue) :
    (s.modifyCore c f).Placed A := by
  cases hc : s.core? c with
  | none => simpa [modifyCore_of_none hc] using hp
  | some core =>
    obtain ⟨hthreads, hqueue⟩ := hf core
    obtain ⟨hn, hh, hr⟩ := hp.ordered c core hc
    rw [modifyCore_eq hc]
    refine hp.setCore hc ⟨?_, ?_, ?_⟩ (fun t hh hr hn => ?_) fun t ht _ => ht
    · rwa [hthreads]
    · rwa [hthreads]
    · rwa [hqueue]
    · rw [hthreads]
      exact hp.present c core t hc hh hr hn

theorem Placed.raiseIpi (hp : s.Placed A) (c : CoreId) : (s.raiseIpi c).Placed A :=
  hp.modifyCore c fun _ => ⟨rfl, rfl⟩

theorem Placed.deliverIpi (hp : s.Placed A) (c : CoreId) : (s.deliverIpi c).Placed A := by
  refine Placed.reschedule (hp.modifyCore c ?_) c
  exact fun _ => ⟨rfl, rfl⟩

theorem Placed.deliverIpis (hp : s.Placed A) : s.deliverIpis.2.Placed A := by
  have hrun : ∀ cores : List CoreId, ∀ s : State, s.Placed A → (cores.foldl State.deliverIpi s).Placed A := by
    intro cores
    induction cores with
    | nil => exact fun _ hp => hp
    | cons c cores ih => exact fun s hp => ih (s.deliverIpi c) (hp.deliverIpi c)
  exact hrun s.pendingCores s hp

/-- A thread that takes over its core leaves astray only the one that it displaces. -/
theorem Placed.setCurrent (hp : s.Placed (insert t A)) (hc : s.core? c = some core)
    (hhome : s.homeOf t = some c) (hq : t ∉ core.queue) :
    (s.setCurrent c (some t)).Placed (A ∪ {u | core.current = some u}) := by
  have hord := hp.ordered c core hc
  rw [State.setCurrent, modifyCore_eq hc]
  refine hp.setCore hc ⟨?_, fun u hu => ?_, hord.mayRun⟩ (fun u hh hr hn => ?_) fun u hu hne => ?_
  · refine Core.nodup_threads.mpr ⟨(Core.nodup_threads.mp hord.nodup).1, fun u hu => ?_⟩
    cases hu
    exact hq
  · rcases Core.mem_threads.mp hu with hu | hu
    · exact hord.home u (Core.mem_threads.mpr (.inl hu))
    · cases hu
      exact hhome
  · obtain ⟨hA, hcur⟩ : u ∉ A ∧ core.current ≠ some u := by simpa using hn
    by_cases hut : u = t
    · exact Core.mem_threads.mpr (.inr (by rw [hut]))
    · have hin := hp.present c core u hc hh hr (by simp [hut, hA])
      exact Core.mem_threads.mpr (.inl ((Core.mem_threads.mp hin).resolve_right hcur))
  · exact .inl ((Set.mem_insert_iff.mp hu).resolve_left fun h => hne (h ▸ hhome))

theorem Placed.enqueueOption {o : Option ThreadId} (hp : s.Placed (A ∪ {u | o = some u})) :
    (s.enqueueOption o).Placed A := by
  cases o with
  | none => exact hp.mono (by simp)
  | some u => exact (hp.mono (by intro v; simp [eq_comm])).enqueue

theorem Placed.runOnCore (hp : s.Placed A) (t : ThreadId) : (s.runOnCore t).2.Placed A := by
  cases ht : s.thread? t with
  | none => simpa [State.runOnCore, ht] using hp
  | some thread =>
    have hhome : s.homeOf t = some thread.core := by simp [homeOf, ht]
    obtain ⟨core, hc⟩ := hp.core_of_home hhome
    have hevict : (s.evict t).core? thread.core = some (core.drop t) := by simp [core?_evict, hc]
    simp only [State.runOnCore, ht, hevict]
    split
    · exact hp
    · exact ((hp.evict t).setCurrent hevict hhome (unqueued_evict s t _ _ hevict)).enqueueOption

end State
end PluginSlot.Kernel
