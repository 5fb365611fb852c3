import PluginSlot.Kernel.Operation

/-! One core at a time: putting a core in the place of another, and the look-ups that follow. -/
namespace PluginSlot.Kernel

/-- The threads of a core: those that wait for it, then the one that executes. -/
def Core.threads (core : Core) : List ThreadId := core.queue ++ core.current.toList

theorem Core.mem_threads {core : Core} {t : ThreadId} :
    t ∈ core.threads ↔ t ∈ core.queue ∨ core.current = some t := by
  simp [threads]

theorem Core.nodup_threads {core : Core} :
    core.threads.Nodup ↔ core.queue.Nodup ∧ ∀ t, core.current = some t → t ∉ core.queue := by
  cases hc : core.current with
  | none => simp [threads, hc]
  | some t =>
    have hne : (∀ a ∈ core.queue, a ≠ t) ↔ t ∉ core.queue :=
      ⟨fun h hm => h t hm rfl, fun h a ha he => h (he ▸ ha)⟩
    simp [threads, hc, List.nodup_append, hne]

/-- Execute the first of some threads and let the others wait. -/
def Core.dispatch (core : Core) (turns : List ThreadId) : Core :=
  { core with current := turns.head?, queue := turns.tail }

theorem Core.threads_dispatch_perm (core : Core) (turns : List ThreadId) :
    (core.dispatch turns).threads.Perm turns := by
  cases turns with
  | nil => exact List.Perm.refl _
  | cons t rest => exact (List.perm_append_comm : (rest ++ [t]).Perm ([t] ++ rest))

theorem Core.mem_threads_drop {core : Core} {t u : ThreadId} :
    u ∈ (core.drop t).threads ↔ u ∈ core.threads ∧ (u = t → core.current = some t) := by
  simp only [mem_threads, drop, List.mem_filter, decide_eq_true_eq]
  grind

theorem Core.nodup_threads_drop {core : Core} (h : core.threads.Nodup) (t : ThreadId) :
    (core.drop t).threads.Nodup := by
  obtain ⟨hn, hcur⟩ := nodup_threads.mp h
  exact nodup_threads.mpr ⟨hn.filter _, fun u hu hm => hcur u hu (List.mem_filter.mp hm).1⟩

theorem Core.mem_queue_enqueue {core : Core} {t u : ThreadId} :
    u ∈ (core.enqueue t).queue ↔ u ∈ core.queue ∨ u = t := by
  rw [enqueue]
  split <;> grind

@[simp] theorem Core.current_enqueue (core : Core) (t : ThreadId) :
    (core.enqueue t).current = core.current := by
  rw [enqueue]
  split <;> rfl

theorem Core.mem_threads_enqueue {core : Core} {t u : ThreadId} :
    u ∈ (core.enqueue t).threads ↔ u ∈ core.threads ∨ u = t := by
  rw [mem_threads, mem_threads, mem_queue_enqueue, current_enqueue]
  grind

theorem Core.nodup_threads_enqueue {core : Core} {t : ThreadId} (h : core.threads.Nodup)
    (hcur : core.current ≠ some t) : (core.enqueue t).threads.Nodup := by
  obtain ⟨hn, hq⟩ := nodup_threads.mp h
  refine nodup_threads.mpr ⟨?_, fun u hu hm => ?_⟩
  · rw [enqueue]
    split
    case isTrue => exact hn
    case isFalse hnew => exact List.nodup_append.mpr ⟨hn, by simp, by grind⟩
  · rw [current_enqueue] at hu
    rcases mem_queue_enqueue.mp hm with hm | rfl
    · exact hq u hu hm
    · exact hcur hu

namespace State

/-- The core that a thread runs on, if there is such a thread. -/
def homeOf (s : State) (t : ThreadId) : Option CoreId := (s.thread? t).map (·.core)

theorem homeOf_eq_some {s : State} {t : ThreadId} {c : CoreId} :
    s.homeOf t = some c ↔ ∃ thread, s.thread? t = some thread ∧ thread.core = c := by
  simp [homeOf]

theorem mayRun_eq_true {s : State} {t : ThreadId} :
    s.mayRun t = true ↔ ∃ thread, s.thread? t = some thread ∧ thread.mask.isRunnable = true := by
  simp [mayRun, Option.any_eq_true]

/-- Put a core in the place of another. -/
def setCore (s : State) (c : CoreId) (core : Core) : State := s.modifyCore c fun _ => core

section
variable (s : State) (c : CoreId) (core : Core) (f : Core → Core) (t : ThreadId)

@[simp] theorem thread?_modifyCore : (s.modifyCore c f).thread? t = s.thread? t := rfl
@[simp] theorem homeOf_modifyCore : (s.modifyCore c f).homeOf t = s.homeOf t := rfl
@[simp] theorem mayRun_modifyCore : (s.modifyCore c f).mayRun t = s.mayRun t := rfl
@[simp] theorem thread?_setCore : (s.setCore c core).thread? t = s.thread? t := rfl
@[simp] theorem homeOf_setCore : (s.setCore c core).homeOf t = s.homeOf t := rfl
@[simp] theorem mayRun_setCore : (s.setCore c core).mayRun t = s.mayRun t := rfl

theorem core?_setCore (d : CoreId) :
    (s.setCore c core).core? d = if c = d then (s.core? d).map fun _ => core else s.core? d :=
  core?_modifyCore ..

end

variable {s : State} {c : CoreId}

theorem core?_setCore_self {old : Core} (h : s.core? c = some old) (core : Core) :
    (s.setCore c core).core? c = some core := by
  simp [core?_setCore, h]

theorem core?_setCore_ne {d : CoreId} (h : c ≠ d) (core : Core) :
    (s.setCore c core).core? d = s.core? d := by
  simp [core?_setCore, h]

/-- Two states are equal if they differ only in their cores, and these look alike. -/
theorem ext_core? {s s' : State} (hc : ∀ c, s.core? c = s'.core? c)
    (h : s = { s' with cores := s.cores }) : s = s' := by
  have hcores : s.cores = s'.cores := List.ext_getElem? fun n => hc ⟨n⟩
  rw [h, hcores]

theorem modifyCore_eq {core : Core} (h : s.core? c = some core) (f : Core → Core) :
    s.modifyCore c f = s.setCore c (f core) := by
  refine ext_core? (fun d => ?_) rfl
  rw [core?_modifyCore, core?_setCore]
  by_cases hd : c = d
  · subst hd
    simp [h]
  · simp [hd]

theorem modifyCore_of_none (h : s.core? c = none) (f : Core → Core) : s.modifyCore c f = s := by
  refine ext_core? (fun d => ?_) rfl
  rw [core?_modifyCore]
  by_cases hd : c = d
  · subst hd
    simp [h]
  · simp [hd]

theorem setCore_setCore (core core' : Core) :
    (s.setCore c core).setCore c core' = s.setCore c core' := by
  refine ext_core? (fun d => ?_) rfl
  rw [core?_setCore, core?_setCore, core?_setCore]
  by_cases hd : c = d
  · simp [hd, Function.comp_def]
  · simp [hd]

theorem modifyCore_setCore {old : Core} (h : s.core? c = some old) (core : Core) (f : Core → Core) :
    (s.setCore c core).modifyCore c f = s.setCore c (f core) := by
  rw [modifyCore_eq (core?_setCore_self h core), setCore_setCore]

theorem mem_indexedCores {core : Core} : (c, core) ∈ s.indexedCores ↔ s.core? c = some core := by
  simp only [indexedCores, List.mem_map, List.mem_zipIdx_iff_getElem?, core?, Prod.mk.injEq]
  constructor
  · rintro ⟨e, he, rfl, rfl⟩
    exact he
  · intro hc
    exact ⟨(core, c.val), hc, rfl, rfl⟩

theorem runningCore_eq_none {t : ThreadId} :
    s.runningCore t = none ↔ ∀ c core, s.core? c = some core → core.current ≠ some t := by
  simp only [runningCore, Option.map_eq_none_iff, List.findIdx?_eq_none_iff, decide_eq_false_iff_not]
  constructor
  · intro h c core hc
    exact h core (List.mem_of_getElem? hc)
  · intro h core hm
    obtain ⟨n, hn⟩ := List.mem_iff_getElem?.mp hm
    exact h ⟨n⟩ core hn

theorem runningCore_isSome {t : ThreadId} :
    (s.runningCore t).isSome = true ↔ ∃ c core, s.core? c = some core ∧ core.current = some t := by
  rw [Option.isSome_iff_ne_none, Ne, runningCore_eq_none]
  simp

theorem exists_of_runningCore {t : ThreadId} (h : s.runningCore t = some c) :
    ∃ core, s.core? c = some core ∧ core.current = some t := by
  obtain ⟨n, hn, rfl⟩ := Option.map_eq_some_iff.mp h
  obtain ⟨hlt, hcur, -⟩ := List.findIdx?_eq_some_iff_getElem.mp hn
  exact ⟨s.cores[n], List.getElem?_eq_getElem hlt, by simpa using hcur⟩

theorem popRunnable_eq {core : Core} (hc : s.core? c = some core)
    (hrun : ∀ t ∈ core.queue, s.mayRun t = true) :
    s.popRunnable c = (core.queue.head?, s.setCore c { core with queue := core.queue.tail }) := by
  have hq : core.queue.dropWhile (fun t => !s.mayRun t) = core.queue := by
    cases h : core.queue with
    | nil => rfl
    | cons t rest => simp [hrun t (by simp [h])]
  simp only [popRunnable, hc, hq]
  rw [modifyCore_eq hc]

/-- What evicting a thread does to each core. -/
theorem core?_evict (t : ThreadId) : (s.evict t).core? c = (s.core? c).map (·.drop t) := by
  simp [core?, evict]

@[simp] theorem currentOf_evict (t : ThreadId) : (s.evict t).currentOf c = s.currentOf c := by
  rw [currentOf, currentOf, core?_evict]
  cases s.core? c <;> rfl

@[simp] theorem thread?_evict (t u : ThreadId) : (s.evict t).thread? u = s.thread? u := rfl
@[simp] theorem homeOf_evict (t u : ThreadId) : (s.evict t).homeOf u = s.homeOf u := rfl
@[simp] theorem mayRun_evict (t u : ThreadId) : (s.evict t).mayRun u = s.mayRun u := rfl

end State
end PluginSlot.Kernel
