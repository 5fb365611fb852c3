import Mathlib.Data.List.Induction
import Mathlib.Data.List.Rotate
import PluginSlot.Proofs.Kernel.Scheduled

/-!
Ticks of one core. The threads that wait, followed by the one that executes, form a cycle; each tick
turns it by one place and touches nothing else.
-/
namespace PluginSlot.Kernel

/-- Execute the last of some threads and let the others wait. -/
def Core.arrange (core : Core) (order : List ThreadId) : Core :=
  { core with current := order.getLast?, queue := order.dropLast }

@[simp] theorem Core.threads_arrange (core : Core) (order : List ThreadId) :
    (core.arrange order).threads = order := by
  cases order using List.reverseRecOn with
  | nil => rfl
  | append_singleton rest t => simp [arrange, threads]

/-- The thread that takes its turn is the last of the cycle afterwards. -/
theorem Core.dispatch_eq_arrange (core : Core) (order : List ThreadId) :
    core.dispatch order = core.arrange (order.rotate 1) := by
  cases order with
  | nil => rfl
  | cons t rest => simp [dispatch, arrange]

namespace State

variable {s : State} {c : CoreId} {core : Core} {A : Set ThreadId}

theorem setCore_self (hc : s.core? c = some core) : s.setCore c core = s := by
  refine ext_core? (fun d => ?_) rfl
  rw [core?_setCore]
  split
  case isTrue h => rw [← h, hc, Option.map_some]
  case isFalse => rfl

/-- Let a core tick a number of times. -/
def ticks (s : State) (c : CoreId) (k : Nat) : State := s.runAll (List.replicate k (.tick c))

@[simp] theorem ticks_zero (s : State) (c : CoreId) : s.ticks c 0 = s := rfl

theorem ticks_succ (s : State) (c : CoreId) (k : Nat) :
    s.ticks c (k + 1) = ((s.ticks c k).tick c).2 := by
  rw [ticks, ticks, List.replicate_succ', runAll_concat]
  rfl

/-- All threads of a core may run if the one that executes may. -/
theorem Placed.mayRun_of_mem_threads (hp : s.Placed A) (hc : s.core? c = some core)
    (hcur : ∀ t, core.current = some t → s.mayRun t = true) :
    ∀ t ∈ core.threads, s.mayRun t = true := by
  intro t ht
  rcases Core.mem_threads.mp ht with hq | hr
  · exact (hp.ordered c core hc).mayRun t hq
  · exact hcur t hr

/-- One tick turns the cycle by one place. -/
theorem Placed.tick_eq_rotate (hp : s.Placed A) (hc : s.core? c = some core)
    (hrun : ∀ t ∈ core.threads, s.mayRun t = true) :
    s.tick c = (core.threads.head?, s.setCore c (core.arrange (core.threads.rotate 1))) := by
  rw [hp.tick_eq hc, turns, List.filter_eq_self.mpr hrun, Core.dispatch_eq_arrange]

/-- The same for a core whose cycle was turned before. -/
theorem Placed.tick_setCore {order : List ThreadId}
    (hp : (s.setCore c (core.arrange order)).Placed A) (hc : s.core? c = some core)
    (hrun : ∀ t ∈ order, s.mayRun t = true) :
    (s.setCore c (core.arrange order)).tick c =
      (order.head?, s.setCore c (core.arrange (order.rotate 1))) := by
  have hnow := core?_setCore_self hc (core.arrange order)
  rw [hp.tick_eq_rotate hnow (by simpa using hrun), Core.threads_arrange, setCore_setCore]
  rfl

/-- Ticks turn the cycle of their core by as many places, and change nothing else. -/
theorem Placed.ticks_eq (hp : s.Placed A) (hc : s.core? c = some core)
    (hrun : ∀ t ∈ core.threads, s.mayRun t = true) (k : Nat) :
    s.ticks c (k + 1) = s.setCore c (core.arrange (core.threads.rotate (k + 1))) := by
  induction k with
  | zero => rw [ticks_succ, ticks_zero, hp.tick_eq_rotate hc hrun]
  | succ k ih =>
    -- operations lead to the state before this tick, so it is placed as well
    have hplaced : (s.ticks c (k + 1)).Placed _ := hp.runAll (List.replicate (k + 1) (.tick c))
    rw [ih] at hplaced
    rw [ticks_succ, ih, hplaced.tick_setCore hc (by simpa using hrun), List.rotate_rotate]

/-- The threads of a core take their turns one after the other. -/
theorem Placed.tick_ticks (hp : s.Placed A) (hc : s.core? c = some core)
    (hrun : ∀ t ∈ core.threads, s.mayRun t = true) (k : Nat) :
    ((s.ticks c k).tick c).1 = (core.threads.rotate k).head? := by
  cases k with
  | zero => rw [ticks_zero, hp.tick_eq_rotate hc hrun, List.rotate_zero]
  | succ k =>
    have hplaced : (s.ticks c (k + 1)).Placed _ := hp.runAll (List.replicate (k + 1) (.tick c))
    rw [hp.ticks_eq hc hrun] at hplaced ⊢
    rw [hplaced.tick_setCore hc (by simpa using hrun)]

/-- Every thread of a core has its turn within one round. -/
theorem Placed.exists_tick_eq (hp : s.Placed A) (hc : s.core? c = some core)
    (hrun : ∀ t ∈ core.threads, s.mayRun t = true) {t : ThreadId} (ht : t ∈ core.threads) :
    ∃ k < core.threads.length, ((s.ticks c k).tick c).1 = some t := by
  obtain ⟨k, hk, rfl⟩ := List.mem_iff_getElem.mp ht
  refine ⟨k, hk, ?_⟩
  rw [hp.tick_ticks hc hrun, List.head?_rotate hk, List.getElem?_eq_getElem hk]

/-- Ticks of a core touch nothing but its current thread and its queue. -/
theorem Placed.ticks_frame (hp : s.Placed A) (hc : s.core? c = some core)
    (hrun : ∀ t ∈ core.threads, s.mayRun t = true) (k : Nat) :
    ∃ current queue, s.ticks c k = s.setCore c { core with current := current, queue := queue } := by
  cases k with
  | zero => exact ⟨core.current, core.queue, by rw [ticks_zero, setCore_self hc]⟩
  | succ k => exact ⟨_, _, hp.ticks_eq hc hrun k⟩

/-- In every state that operations lead to, consecutive ticks of a core whose thread may run hand
the core round: first to those that wait, in their order, then to the thread that executes now, and
then again. Whole rounds leave the threads in that order, and ticks of one core change neither
another core, nor a thread, nor anything else. -/
theorem runAll_ticks (cores : Nat) (ops : List Operation) {c : CoreId} {core : Core}
    (hc : ((boot cores).runAll ops).core? c = some core)
    (hcur : ∀ t, core.current = some t → ((boot cores).runAll ops).mayRun t = true)
    (hpos : 0 < (core.queue ++ core.current.toList).length) :
    let s := (boot cores).runAll ops
    let order := core.queue ++ core.current.toList
    (∀ k, 0 < k → ((s.ticks c (k - 1)).tick c).1 =
        some (order.get ⟨(k - 1) % order.length, Nat.mod_lt _ hpos⟩)) ∧
      (∀ m, 0 < m → (s.ticks c (m * order.length)).core? c =
        some { core with current := order.getLast?, queue := order.dropLast }) ∧
      ∀ k, (∀ d, c ≠ d → (s.ticks c k).core? d = s.core? d) ∧
        (∀ t, (s.ticks c k).thread? t = s.thread? t) ∧
        ∃ current queue, s.ticks c k = s.setCore c { core with current := current, queue := queue } := by
  intro s order
  have hp := (placed_boot cores).runAll ops
  have hrun := hp.mayRun_of_mem_threads hc hcur
  refine ⟨fun k hk => ?_, fun m hm => ?_, fun k => ?_⟩
  · rw [hp.tick_ticks hc hrun]
    change (order.rotate (k - 1)).head? = _
    rw [← List.rotate_mod, List.head?_rotate (Nat.mod_lt _ hpos),
      List.getElem?_eq_getElem (Nat.mod_lt _ hpos), List.get_eq_getElem]
  · obtain ⟨k, hk⟩ := Nat.exists_eq_add_one.mpr (Nat.mul_pos hm hpos)
    rw [hk, hp.ticks_eq hc hrun, core?_setCore_self hc, ← hk, Nat.mul_comm]
    change some (core.arrange (order.rotate (order.length * m))) = _
    rw [List.rotate_length_mul]
    rfl
  · obtain ⟨current, queue, h⟩ := hp.ticks_frame hc hrun k
    refine ⟨fun d hd => ?_, fun t => ?_, current, queue, h⟩
    · rw [h, core?_setCore_ne hd]
    · rw [h, thread?_setCore]

/-- A core executes one thread while two others wait for it. -/
theorem runAll_ticks_three :
    let s := (boot 1).runAll [.createProcess "host" 1, .createThread ⟨1⟩ ⟨0⟩,
      .createThread ⟨1⟩ ⟨0⟩, .createThread ⟨1⟩ ⟨0⟩, .setThreadState ⟨1⟩ .runnable,
      .setThreadState ⟨2⟩ .runnable, .setThreadState ⟨3⟩ .runnable, .runOnCore ⟨1⟩]
    s.core? ⟨0⟩ = some ⟨some ⟨1⟩, [⟨2⟩, ⟨3⟩], false, 0⟩ ∧ s.mayRun ⟨1⟩ = true ∧
      ((s.ticks ⟨0⟩ 4).tick ⟨0⟩).1 = some ⟨3⟩ ∧
      (s.ticks ⟨0⟩ 3).core? ⟨0⟩ = some ⟨some ⟨1⟩, [⟨2⟩, ⟨3⟩], false, 0⟩ := by
  intro s
  have hc : s.core? ⟨0⟩ = some ⟨some ⟨1⟩, [⟨2⟩, ⟨3⟩], false, 0⟩ := by decide
  have hrun : s.mayRun ⟨1⟩ = true := by decide
  obtain ⟨hturn, hround, -⟩ := runAll_ticks 1 _ hc (fun t ht => by cases ht; exact hrun) (by decide)
  exact ⟨hc, hrun, hturn 5 (by decide), hround 1 (by decide)⟩

end State
end PluginSlot.Kernel
