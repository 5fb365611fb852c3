import Mathlib.Data.Set.Insert
import PluginSlot.Proofs.Kernel.Cores

/-!
Where threads are. Each core has only threads of its own, each once, and those that wait may run;
a thread that may run is on its core, unless it was taken off by hand.
-/
namespace PluginSlot.Kernel

/-- A core has only threads of its own, each once, and those that wait may run. -/
structure Core.Ordered (s : State) (c : CoreId) (core : Core) : Prop where
  nodup : core.threads.Nodup
  home : ∀ t ∈ core.threads, s.homeOf t = some c
  mayRun : ∀ t ∈ core.queue, s.mayRun t = true

namespace State

/-- Threads are where they belong. Of those that may run, only some that went astray are on no
core. -/
structure Placed (astray : Set ThreadId) (s : State) : Prop where
  ordered : ∀ c core, s.core? c = some core → core.Ordered s c
  home : ∀ t c, s.homeOf t = some c → (s.core? c).isSome = true
  known : ∀ t, (s.homeOf t).isSome = true → t.val < s.nextThread
  present : ∀ c core t, s.core? c = some core → s.homeOf t = some c → s.mayRun t = true →
    t ∉ astray → t ∈ core.threads

variable {s : State} {c : CoreId} {core : Core} {t : ThreadId} {A B : Set ThreadId}

theorem Placed.mono (hp : s.Placed A) (h : A ⊆ B) : s.Placed B where
  ordered := hp.ordered
  home := hp.home
  known := hp.known
  present c core t hc hh hr hn := hp.present c core t hc hh hr fun ha => hn (h ha)

theorem Placed.core_of_home (hp : s.Placed A) (h : s.homeOf t = some c) :
    ∃ core, s.core? c = some core :=
  Option.isSome_iff_exists.mp (hp.home t c h)

/-- A thread executes on its own core only. -/
theorem Placed.home_of_current (hp : s.Placed A) (hc : s.core? c = some core)
    (ht : core.current = some t) : s.homeOf t = some c :=
  (hp.ordered c core hc).home t (Core.mem_threads.mpr (.inr ht))

theorem Placed.home_of_queued (hp : s.Placed A) (hc : s.core? c = some core) (ht : t ∈ core.queue) :
    s.homeOf t = some c :=
  (hp.ordered c core hc).home t (Core.mem_threads.mpr (.inl ht))

/-- A thread that waits executes nowhere. -/
theorem Placed.runningCore_of_queued (hp : s.Placed A) (hc : s.core? c = some core)
    (ht : t ∈ core.queue) : s.runningCore t = none := by
  refine runningCore_eq_none.mpr fun d other hd hcur => ?_
  have hh : some c = some d := (hp.home_of_queued hc ht).symm.trans (hp.home_of_current hd hcur)
  cases hh
  cases hc.symm.trans hd
  exact (Core.nodup_threads.mp (hp.ordered c core hc).nodup).2 t hcur ht

theorem Placed.runningCore_eq_some (hp : s.Placed A) :
    s.runningCore t = some c ↔ ∃ core, s.core? c = some core ∧ core.current = some t := by
  constructor
  · exact exists_of_runningCore
  · rintro ⟨core, hc, ht⟩
    obtain ⟨d, hd⟩ := Option.isSome_iff_exists.mp (runningCore_isSome.mpr ⟨c, core, hc, ht⟩)
    obtain ⟨other, ho, hcur⟩ := exists_of_runningCore hd
    have hh : some c = some d := (hp.home_of_current hc ht).symm.trans (hp.home_of_current ho hcur)
    rw [hd, hh]

/-- To change one core it is enough to look at that core. -/
theorem Placed.setCore {old : Core} (hp : s.Placed A) (hc : s.core? c = some old)
    (hord : core.Ordered s c)
    (hin : ∀ t, s.homeOf t = some c → s.mayRun t = true → t ∉ B → t ∈ core.threads)
    (hout : ∀ t ∈ A, s.homeOf t ≠ some c → t ∈ B) : (s.setCore c core).Placed B where
  ordered d other hd := by
    by_cases h : c = d
    · subst h
      cases (core?_setCore_self hc core).symm.trans hd
      exact ⟨hord.nodup, hord.home, hord.mayRun⟩
    · have ho := hp.ordered d other ((core?_setCore_ne h core).symm.trans hd)
      exact ⟨ho.nodup, ho.home, ho.mayRun⟩
  home t d ht := by
    have hd := hp.home t d ht
    rw [core?_setCore]
    split <;> simpa using hd
  known := hp.known
  present d other t hd hh hr hn := by
    by_cases h : c = d
    · subst h
      cases (core?_setCore_self hc core).symm.trans hd
      exact hin t hh hr hn
    · refine hp.present d other t ((core?_setCore_ne h core).symm.trans hd) hh hr fun ha => ?_
      exact hn (hout t ha fun he => h (Option.some.inj (he.symm.trans hh)))

/-- The threads of a core that may run, in the order in which they come to execute. -/
def turns (s : State) (core : Core) : List ThreadId := core.threads.filter s.mayRun

theorem turns_eq (hr : ∀ t ∈ core.queue, s.mayRun t = true) :
    s.turns core = core.queue ++ (core.current.filter s.mayRun).toList := by
  rw [turns, Core.threads, List.filter_append, List.filter_eq_self.mpr hr, Option.toList_filter]

/-- A thread that just stopped executing goes to the back of the queue, if it may run. -/
theorem Placed.enqueueOption_eq (hp : s.Placed A) (hc : s.core? c = some core) (rest : List ThreadId)
    (hrest : ∀ t ∈ rest, t ∈ core.queue) :
    (s.setCore c { core with current := none, queue := rest }).enqueueOption core.current =
      s.setCore c { core with
        current := none, queue := rest ++ (core.current.filter s.mayRun).toList } := by
  cases hcur : core.current with
  | none => simp [enqueueOption]
  | some t =>
    obtain ⟨thread, ht, hhome⟩ := homeOf_eq_some.mp (hp.home_of_current hc hcur)
    have hrun : s.mayRun t = thread.mask.isRunnable := by simp [mayRun, ht]
    have hidle : (s.setCore c { core with current := none, queue := rest }).runningCore t = none := by
      refine runningCore_eq_none.mpr fun d other hd hother => ?_
      by_cases h : c = d
      · subst h
        cases (core?_setCore_self hc _).symm.trans hd
        cases hother
      · have hd' := (core?_setCore_ne h _).symm.trans hd
        have hh : some c = some d :=
          (hp.home_of_current hc hcur).symm.trans (hp.home_of_current hd' hother)
        exact h (Option.some.inj hh)
    have hnew : t ∉ rest := fun hm =>
      (Core.nodup_threads.mp (hp.ordered c core hc).nodup).2 t hcur (hrest t hm)
    cases hm : thread.mask.isRunnable with
    | false =>
      have hstop : (Option.filter s.mayRun (some t)).toList = [] := by simp [Option.filter, hrun, hm]
      simp [enqueueOption, enqueue, ht, hm, hstop]
    | true =>
      have hback : (Option.filter s.mayRun (some t)).toList = [t] := by
        simp [Option.filter, hrun, hm]
      simp [enqueueOption, enqueue, ht, hm, hback, hidle, hhome, modifyCore_setCore hc, Core.enqueue,
        hnew]

/-- A tick gives the first turn of a core to execute, and keeps the order of the others. -/
theorem Placed.tick_eq (hp : s.Placed A) (hc : s.core? c = some core) :
    s.tick c = ((s.turns core).head?, s.setCore c (core.dispatch (s.turns core))) := by
  have hord := hp.ordered c core hc
  have hpop : (s.setCurrent c none).popRunnable c =
      (core.queue.head?, s.setCore c { core with current := none, queue := core.queue.tail }) := by
    have hidle := core?_setCore_self hc { core with current := none }
    rw [setCurrent, modifyCore_eq hc, popRunnable_eq hidle hord.mayRun, setCore_setCore]
  have hback := hp.enqueueOption_eq hc core.queue.tail fun t ht => List.mem_of_mem_tail ht
  rw [turns_eq hord.mayRun]
  simp only [tick, hc, hpop, hback]
  cases hq : core.queue with
  | cons t rest => simp [setCurrent, modifyCore_setCore hc, Core.dispatch]
  | nil =>
    -- nobody waited, so the thread put back is the only one there
    have hrun : ∀ t ∈ (core.current.filter s.mayRun).toList, s.mayRun t = true := by
      simp [Option.filter_eq_some_iff]
    have hidle := core?_setCore_self hc
      { core with current := none, queue := (core.current.filter s.mayRun).toList }
    simp only [List.tail_nil, List.nil_append, List.head?_nil]
    rw [popRunnable_eq hidle hrun]
    simp [setCurrent, setCore_setCore, modifyCore_setCore hc, Core.dispatch]

/-- A core whose current thread may not run reschedules as at a tick. -/
theorem Placed.reschedule_eq (hp : s.Placed A) (hc : s.core? c = some core) :
    s.reschedule c =
      if core.current.any s.mayRun then s else s.setCore c (core.dispatch (s.turns core)) := by
  have hord := hp.ordered c core hc
  have hcur : s.currentOf c = core.current := by simp [currentOf, hc]
  simp only [reschedule, hcur, popRunnable_eq hc hord.mayRun]
  split
  case isTrue => rfl
  case isFalse hstop =>
    have hnone : (core.current.filter s.mayRun).toList = [] := by
      cases h : core.current with
      | none => rfl
      | some t => simp_all
    simp [setCurrent, modifyCore_setCore hc, turns_eq hord.mayRun, hnone, Core.dispatch]

theorem Placed.setCore_dispatch (hp : s.Placed A) (hc : s.core? c = some core) :
    (s.setCore c (core.dispatch (s.turns core))).Placed A := by
  have hord := hp.ordered c core hc
  have hperm := Core.threads_dispatch_perm core (s.turns core)
  have hmem : ∀ t, t ∈ (core.dispatch (s.turns core)).threads ↔ t ∈ core.threads ∧ s.mayRun t = true := by
    intro t
    rw [hperm.mem_iff, turns, List.mem_filter]
  refine hp.setCore hc ⟨?_, fun t ht => hord.home t ((hmem t).mp ht).1, fun t ht => ?_⟩ ?_ fun t ht _ => ht
  · exact hperm.nodup_iff.mpr (hord.nodup.filter _)
  · exact ((hmem t).mp (Core.mem_threads.mpr (.inl ht))).2
  · intro t hh hr hn
    exact (hmem t).mpr ⟨hp.present c core t hc hh hr hn, hr⟩

theorem Placed.tick (hp : s.Placed A) (c : CoreId) : (s.tick c).2.Placed A := by
  cases hc : s.core? c with
  | none => simpa [State.tick, hc] using hp
  | some core =>
    rw [hp.tick_eq hc]
    exact hp.setCore_dispatch hc

theorem Placed.reschedule (hp : s.Placed A) (c : CoreId) : (s.reschedule c).Placed A := by
  cases hc : s.core? c with
  | none => simpa [State.reschedule, currentOf, popRunnable, setCurrent, hc, modifyCore_of_none hc] using hp
  | some core =>
    rw [hp.reschedule_eq hc]
    split
    · exact hp
    · exact hp.setCore_dispatch hc

end State
end PluginSlot.Kernel
