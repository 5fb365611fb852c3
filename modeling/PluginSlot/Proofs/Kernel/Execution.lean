import PluginSlot.Proofs.Kernel.Scheduled

/-!
Which threads execute. A core may go on with a thread that should stop only until it reschedules:
while it was asked to, or while the operation in progress is still to make it do so.
-/
namespace PluginSlot.Kernel
namespace State

/-- Every thread that executes has a good mask, or its core is about to reschedule: it was asked
to, if that counts, or it is excused. -/
def Executes (good : Mask → Bool) (pending : Prop) (excused : Set CoreId) (s : State) : Prop :=
  ∀ c core t thread, s.core? c = some core → core.current = some t → s.thread? t = some thread →
    good thread.mask = true ∨ (pending ∧ core.ipiPending = true) ∨ c ∈ excused

variable {s s' : State} {c : CoreId} {core : Core} {t : ThreadId} {thread : Thread}
variable {good : Mask → Bool} {P Q : Prop} {K L : Set CoreId} {A : Set ThreadId}

theorem Executes.mono (h : s.Executes good P K) (hPQ : P → Q) (hKL : K ⊆ L) :
    s.Executes good Q L := by
  intro c core t thread hc hcur ht
  rcases h c core t thread hc hcur ht with hg | ⟨hP, hpend⟩ | hK
  · exact .inl hg
  · exact .inr (.inl ⟨hPQ hP, hpend⟩)
  · exact .inr (.inr (hKL hK))

theorem Executes.frame (hs : s'.threading = s.threading) (h : s.Executes good P K) :
    s'.Executes good P K := by
  intro c core t thread hc hcur ht
  rw [core?_of_threading hs] at hc
  rw [thread?_of_threading hs] at ht
  exact h c core t thread hc hcur ht

/-- A core needs no excuse if what it executes is good. -/
theorem Executes.settle (h : s.Executes good P (insert c K))
    (hcur : ∀ core t, s.core? c = some core → core.current = some t →
      ∀ thread, s.thread? t = some thread → good thread.mask = true) : s.Executes good P K := by
  intro d core t thread hd ht hthread
  by_cases hdc : d = c
  · subst hdc
    exact .inl (hcur core t hd ht thread hthread)
  · rcases h d core t thread hd ht hthread with hg | hp | hK
    · exact .inl hg
    · exact .inr (.inl hp)
    · exact .inr (.inr (hK.resolve_left hdc))

/-- An excused core may be replaced. -/
theorem Executes.setCore (h : s.Executes good P (insert c K)) (core : Core) :
    (s.setCore c core).Executes good P (insert c K) := by
  intro d other t thread hd ht hthread
  by_cases hcd : c = d
  · exact .inr (.inr (.inl hcd.symm))
  · rw [core?_setCore_ne hcd] at hd
    exact h d other t thread hd ht hthread

/-- Cores that execute no other threads than before, and were asked to reschedule if they were. -/
theorem Executes.congr_cores {f : CoreId → Core → Core} (h : s.Executes good P K)
    (hcore : ∀ c, s'.core? c = (s.core? c).map (f c)) (hthread : ∀ t, s'.thread? t = s.thread? t)
    (hcur : ∀ c core t, (f c core).current = some t → core.current = some t)
    (hpend : ∀ c core, core.ipiPending = true → (f c core).ipiPending = true) :
    s'.Executes good P K := by
  intro c core t thread hc ht hth
  rw [hcore] at hc
  obtain ⟨old, ho, rfl⟩ := Option.map_eq_some_iff.mp hc
  rcases h c old t thread ho (hcur c old t ht) ((hthread t).symm.trans hth) with hg | hp | hK
  · exact .inl hg
  · exact .inr (.inl ⟨hp.1, hpend c old hp.2⟩)
  · exact .inr (.inr hK)

theorem Executes.modifyCore (h : s.Executes good P K) (c : CoreId) {f : Core → Core}
    (hcur : ∀ core, (f core).current = core.current)
    (hpend : ∀ core, core.ipiPending = true → (f core).ipiPending = true) :
    (s.modifyCore c f).Executes good P K := by
  refine h.congr_cores (f := fun d => if c = d then f else id) (fun d => ?_) (fun _ => rfl) ?_ ?_
  · rw [core?_modifyCore]
    split <;> simp
  · intro d core t ht
    split at ht
    · rwa [hcur] at ht
    · exact ht
  · intro d core hp
    split
    · exact hpend core hp
    · exact hp

theorem Executes.evict (h : s.Executes good P K) (t : ThreadId) :
    (s.evict t).Executes good P K :=
  h.congr_cores (f := fun _ core => core.drop t) (fun _ => core?_evict t) (fun _ => rfl)
    (fun _ _ _ ht => ht) fun _ _ hp => hp

theorem Executes.enqueue (h : s.Executes good P K) (t : ThreadId) :
    (s.enqueue t).Executes good P K := by
  rw [State.enqueue]
  split
  · exact h
  · split
    · exact h
    · refine h.modifyCore _ (fun core => core.current_enqueue t) fun core hp => ?_
      rw [Core.enqueue]
      split <;> exact hp

theorem Executes.enqueueOption (h : s.Executes good P K) (o : Option ThreadId) :
    (s.enqueueOption o).Executes good P K := by
  cases o with
  | none => exact h
  | some t => exact h.enqueue t

theorem Executes.raiseIpi (h : s.Executes good P K) (c : CoreId) :
    (s.raiseIpi c).Executes good P K :=
  h.modifyCore c (fun _ => rfl) fun _ _ => rfl

/-- A core that is asked to reschedule needs no other excuse. -/
theorem Executes.raiseIpi_self (h : s.Executes good True (insert c K)) :
    (s.raiseIpi c).Executes good True K := by
  intro d core t thread hd ht hthread
  rw [State.raiseIpi, core?_modifyCore] at hd
  by_cases hcd : c = d
  · rw [if_pos hcd] at hd
    obtain ⟨old, -, rfl⟩ := Option.map_eq_some_iff.mp hd
    exact .inr (.inl ⟨trivial, rfl⟩)
  · rw [if_neg hcd] at hd
    rcases h d core t thread hd ht hthread with hg | hp | hK
    · exact .inl hg
    · exact .inr (.inl hp)
    · exact .inr (.inr (hK.resolve_left (Ne.symm hcd)))

/-- A change of mask, if the thread stays good or executes only where that is excused. -/
theorem Executes.setMask (h : s.Executes good P K) (t : ThreadId) (m : Mask)
    (hm : ∀ c core thread, s.core? c = some core → core.current = some t →
      s.thread? t = some thread →
      (good thread.mask = true → good m = true) ∨ (P ∧ core.ipiPending = true) ∨ c ∈ K) :
    (s.setMask t m).Executes good P K := by
  intro c core u thread hc hcur hu
  rw [thread?_setMask] at hu
  split at hu
  case isTrue he =>
    subst he
    obtain ⟨old, ho, rfl⟩ := Option.map_eq_some_iff.mp hu
    rcases hm c core old hc hcur ho with hg | hexcuse
    · exact (h c core u old hc hcur ho).imp_left hg
    · exact .inr hexcuse
  case isFalse => exact h c core u thread hc hcur hu

/-- A thread that gets any mask is a matter of its own core only. -/
theorem Executes.stop (hp : s.Placed A) (h : s.Executes good P K) (ht : s.thread? t = some thread)
    (m : Mask) : ((s.setMask t m).evict t).Executes good P (insert thread.core K) := by
  refine ((h.mono id (Set.subset_insert _ _)).setMask t m fun c core _ hc hcur _ => ?_).evict t
  have hhome : s.homeOf t = some thread.core := by simp [homeOf, ht]
  exact .inr (.inr (.inl (Option.some.inj ((hp.home_of_current hc hcur).symm.trans hhome))))

theorem Executes.stop_idle (h : s.Executes good P K)
    (hidle : ∀ c core, s.core? c = some core → core.current ≠ some t) (m : Mask) :
    ((s.setMask t m).evict t).Executes good P K :=
  (h.setMask t m fun c core _ hc hcur _ => absurd hcur (hidle c core hc)).evict t

/-- A thread executes nowhere if it does not execute at home. -/
theorem Placed.idle_of_home (hp : s.Placed A) (ht : s.thread? t = some thread)
    (hidle : s.currentOf thread.core ≠ some t) (c : CoreId) (core : Core)
    (hc : s.core? c = some core) : core.current ≠ some t := by
  intro hcur
  have hhome : s.homeOf t = some thread.core := by simp [homeOf, ht]
  have hsame : c = thread.core :=
    Option.some.inj ((hp.home_of_current hc hcur).symm.trans hhome)
  rw [← hsame, currentOf, hc] at hidle
  exact hidle hcur

theorem mem_pendingCores (hc : s.core? c = some core) (hpend : core.ipiPending = true) :
    c ∈ s.pendingCores := by
  refine List.mem_map.mpr ⟨(core, c.val), List.mem_filter.mpr ⟨?_, hpend⟩, rfl⟩
  exact List.mem_zipIdx_iff_getElem?.mpr hc

section
variable (hgood : ∀ m : Mask, m.isRunnable = true → good m = true)
include hgood

theorem Executes.dispatch (h : s.Executes good P (insert c K)) (hc : s.core? c = some core) :
    (s.setCore c (core.dispatch (s.turns core))).Executes good P K := by
  refine (h.setCore _).settle fun other t ho ht thread hthread => ?_
  cases (core?_setCore_self hc _).symm.trans ho
  -- whoever gets the turn may run
  have hturn : t ∈ s.turns core := List.mem_of_head? ht
  obtain ⟨found, hfound, hrun⟩ := mayRun_eq_true.mp (List.mem_filter.mp hturn).2
  cases hfound.symm.trans hthread
  exact hgood _ hrun

theorem Executes.tick (hp : s.Placed A) (h : s.Executes good P (insert c K)) :
    (s.tick c).2.Executes good P K := by
  cases hc : s.core? c with
  | none =>
    simp only [State.tick, hc]
    exact h.settle fun core t hcore => by simp [hc] at hcore
  | some core =>
    rw [hp.tick_eq hc]
    exact h.dispatch hgood hc

theorem Executes.reschedule (hp : s.Placed A) (h : s.Executes good P (insert c K)) :
    (s.reschedule c).Executes good P K := by
  cases hc : s.core? c with
  | none =>
    simp only [State.reschedule, currentOf, popRunnable, setCurrent, hc, modifyCore_of_none hc]
    exact h.settle fun core t hcore => by simp [hc] at hcore
  | some core =>
    rw [hp.reschedule_eq hc]
    split
    case isTrue hrun =>
      refine h.settle fun other t ho ht thread hthread => ?_
      cases hc.symm.trans ho
      have hmay : s.mayRun t = true := by simpa [ht] using hrun
      obtain ⟨found, hfound, hm⟩ := mayRun_eq_true.mp hmay
      cases hfound.symm.trans hthread
      exact hgood _ hm
    case isFalse => exact h.dispatch hgood hc

theorem Executes.setThreadState (hp : s.Placed A) (h : s.Executes good P K) (t : ThreadId)
    (state : ThreadState) : (s.setThreadState t state).2.Executes good P K := by
  cases ht : s.thread? t with
  | none => simpa [State.setThreadState, ht] using h
  | some thread =>
    simp only [State.setThreadState, ht]
    split
    case isTrue hm =>
      exact (h.setMask t _ fun _ _ _ _ _ _ => .inl fun _ => hgood _ hm).enqueue t
    case isFalse hm =>
      rw [evict_setMask, currentOf_setMask, currentOf_evict, ← evict_setMask]
      split
      case isTrue =>
        have hout := hp.setMask_evict ht (Bool.eq_false_iff.mpr hm)
        exact Executes.reschedule hgood hout (h.stop hp ht _)
      case isFalse hidle => exact h.stop_idle (hp.idle_of_home ht hidle) _

theorem Executes.runOnCore (hp : s.Placed A) (h : s.Executes good P K) (t : ThreadId) :
    (s.runOnCore t).2.Executes good P K := by
  cases ht : s.thread? t with
  | none => simpa [State.runOnCore, ht] using h
  | some thread =>
    have hhome : s.homeOf t = some thread.core := by simp [homeOf, ht]
    obtain ⟨core, hc⟩ := hp.core_of_home hhome
    have hevict : (s.evict t).core? thread.core = some (core.drop t) := by simp [core?_evict, hc]
    simp only [State.runOnCore, ht, hevict]
    split
    case isTrue => exact h
    case isFalse hm =>
      refine Executes.enqueueOption ?_ _
      rw [setCurrent, modifyCore_eq hevict]
      have hstop := (h.evict t).mono id (Set.subset_insert thread.core K)
      refine (hstop.setCore _).settle fun other u ho hu found hfound => ?_
      cases (core?_setCore_self hevict _).symm.trans ho
      cases hu
      cases ht.symm.trans hfound
      exact hgood _ (by simpa using hm)

theorem Executes.deliverIpi (hp : s.Placed A) (h : s.Executes good P (insert c K)) :
    (s.deliverIpi c).Executes good P K := by
  refine Executes.reschedule hgood (hp.modifyCore c fun _ => ⟨rfl, rfl⟩) ?_
  intro d core t thread hd ht hthread
  by_cases hcd : c = d
  · exact .inr (.inr (.inl hcd.symm))
  · rw [core?_modifyCore, if_neg hcd] at hd
    exact h d core t thread hd ht hthread

theorem Executes.foldl_deliverIpi (cores : List CoreId) (hp : s.Placed A)
    (h : s.Executes good P (K ∪ {c | c ∈ cores})) :
    (cores.foldl State.deliverIpi s).Executes good P K := by
  induction cores generalizing s with
  | nil => exact h.mono id (by simp)
  | cons c cores ih =>
    refine ih (hp.deliverIpi c) (Executes.deliverIpi hgood hp (h.mono id ?_))
    rintro d (hd | hd)
    · exact .inr (.inl hd)
    · exact (List.mem_cons.mp hd).imp_right .inr

/-- Once all interrupts are delivered, nobody is excused for having been asked to reschedule. -/
theorem Executes.deliverIpis (hp : s.Placed A) (h : s.Executes good True K) :
    s.deliverIpis.2.Executes good P K := by
  refine Executes.foldl_deliverIpi hgood s.pendingCores hp fun c core t thread hc ht hthread => ?_
  rcases h c core t thread hc ht hthread with hg | ⟨-, hpend⟩ | hK
  · exact .inl hg
  · exact .inr (.inr (.inr (mem_pendingCores hc hpend)))
  · exact .inr (.inr (.inl hK))

end

theorem Executes.createThread (hp : s.Placed A) (h : s.Executes good P K) (p : ProcessId)
    (c : CoreId) : (s.createThread p c).2.Executes good P K := by
  rw [State.createThread]
  split
  · exact h
  · intro d core t thread hd ht hthread
    have hne := hp.ne_next (hp.home_of_current hd ht)
    exact h d core t thread hd ht ((thread?_addThread_ne s _ hne).symm.trans hthread)

theorem Executes.setTls (h : s.Executes good P K) (t : ThreadId) (slot : Nat) (value : UInt32) :
    (s.setTls t slot value).2.Executes good P K := by
  rw [State.setTls]
  split
  · exact h
  · split
    · exact h
    · intro d core u thread hd hcur hthread
      by_cases hu : t = u
      · subst hu
        rw [thread?_modifyThread_self] at hthread
        obtain ⟨old, ho, rfl⟩ := Option.map_eq_some_iff.mp hthread
        exact h d core t old hd hcur ho
      · rw [thread?_modifyThread_ne s hu] at hthread
        exact h d core u thread hd hcur hthread

theorem Executes.removeThread (h : s.Executes good P K) (t : ThreadId) :
    (s.removeThread t).Executes good P K := by
  intro c core u thread hc hcur hthread
  rw [core?_removeThread] at hc
  obtain ⟨old, ho, rfl⟩ := Option.map_eq_some_iff.mp hc
  obtain ⟨hold, hne⟩ := Core.current_forget_eq_some.mp hcur
  rw [thread?_removeThread_ne s (Ne.symm hne)] at hthread
  rw [Core.ipiPending_forget]
  exact h c old u thread ho hold hthread

theorem Executes.clearPluginLock (h : s.Executes good P K)
    (hclear : ∀ m : Mask, good m = true → good (m.clear Mask.pluginLock) = true) (t : ThreadId) :
    (s.clearPluginLock t).2.Executes good P K := by
  cases ht : s.thread? t with
  | none => simpa [State.clearPluginLock, ht] using h
  | some thread =>
    simp only [State.clearPluginLock, ht]
    split
    · exact h
    · refine (h.setMask t _ fun c core found _ _ hfound => .inl fun hg => ?_).enqueue t
      cases ht.symm.trans hfound
      exact hclear _ hg

end State
end PluginSlot.Kernel
