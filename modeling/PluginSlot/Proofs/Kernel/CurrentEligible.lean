import Mathlib.Data.List.Induction
import PluginSlot.Proofs.Kernel.Locking

/-!
Whether cores execute only threads that may run. One operation alone can end that: a debugger's
hold on a thread takes it out of the queues but does not make the core that executes it reschedule.
-/
namespace PluginSlot.Kernel

/-- The operation holds a thread for a debugger while it executes, on a core that was not asked to
reschedule. -/
def Operation.Freezes (op : Operation) (s : State) : Prop :=
  ∃ t c core, op = .setDebugLock t true ∧ s.core? c = some core ∧ core.current = some t ∧
    core.ipiPending = false

namespace State

variable {s : State} {c : CoreId} {core : Core} {t : ThreadId} {A : Set ThreadId}

theorem currentViolations_eq_nil_iff :
    s.currentViolations = [] ↔ ∀ c core t, s.core? c = some core → core.current = some t →
      s.mayRun t = true ∨ core.ipiPending = true := by
  rw [currentViolations, List.filterMap_eq_nil_iff]
  constructor
  · intro h c core t hc hcur
    have he := h (c, core) (mem_indexedCores.mpr hc)
    simpa [hcur, or_iff_not_imp_left] using he
  · rintro h ⟨c, core⟩ he
    cases hcur : core.current with
    | none => simp [hcur]
    | some t => simpa [hcur, or_iff_not_imp_left] using h c core t (mem_indexedCores.mp he) hcur

/-- Threads that execute exist, so the checker is content if they are runnable. -/
theorem Placed.currentViolations_eq_nil_iff (hp : s.Placed A) :
    s.currentViolations = [] ↔ s.Executes Mask.isRunnable True ∅ := by
  rw [State.currentViolations_eq_nil_iff]
  constructor
  · intro h c core t thread hc hcur ht
    refine (h c core t hc hcur).imp (fun hr => ?_) fun hpend => .inl ⟨trivial, hpend⟩
    simpa [State.mayRun, ht] using hr
  · intro h c core t hc hcur
    obtain ⟨thread, ht, -⟩ := homeOf_eq_some.mp (hp.home_of_current hc hcur)
    rcases h c core t thread hc hcur ht with hg | ⟨-, hpend⟩ | hf
    · exact .inl (by simp [State.mayRun, ht, hg])
    · exact .inr hpend
    · exact hf.elim

theorem Executes.run_eligible (hp : s.Placed A) (h : s.Executes Mask.isRunnable True ∅)
    {op : Operation} (hop : ∀ t, op ≠ .setPluginLock t) (hfree : ¬op.Freezes s) :
    (op.run s).2.Executes Mask.isRunnable True ∅ := by
  refine Executes.run (fun _ hm => hm) (fun _ => Mask.isRunnable_clear_pluginLock) hp h op ?_
  intro hmanual
  cases op with
  | setDebugLock t locked =>
    refine h.setDebugLock t locked fun c core thread hc hcur _ => ?_
    cases locked with
    | false => exact .inl Mask.isRunnable_clear_debugLock
    | true =>
      cases hpend : core.ipiPending with
      | true => exact .inr (.inl ⟨trivial, rfl⟩)
      | false => exact absurd ⟨t, c, core, rfl, hc, hcur, hpend⟩ hfree
  | setPluginLock t => exact absurd rfl (hop t)
  | evict t => exact h.evict t
  | _ => cases hmanual

/-- A thread that is held where it executes stays there, and the checker sees it. -/
theorem Placed.currentViolations_of_freezes (hp : s.Placed A) {op : Operation}
    (hop : op.Freezes s) : (op.run s).2.currentViolations ≠ [] := by
  obtain ⟨t, c, core, rfl, hc, hcur, hpend⟩ := hop
  obtain ⟨thread, ht, -⟩ := homeOf_eq_some.mp (hp.home_of_current hc hcur)
  have hstop : (thread.mask.withDebugLock true).isRunnable = false :=
    Mask.isRunnable_set_debugLock thread.mask
  have hrun : ((Operation.setDebugLock t true).run s).2 =
      (s.setMask t (thread.mask.withDebugLock true)).evict t := by
    refine (setDebugLock_eq ht true).trans (if_neg ?_)
    simp [hstop]
  rw [hrun, Ne, State.currentViolations_eq_nil_iff]
  intro h
  have hafter : ((s.setMask t (thread.mask.withDebugLock true)).evict t).core? c =
      some (core.drop t) := by
    rw [core?_evict, core?_setMask, hc, Option.map_some]
  rcases h c (core.drop t) t hafter hcur with hr | hp
  · rw [mayRun_evict, mayRun_setMask_self s t _ ht, hstop] at hr
    cases hr
  · cases hpend.symm.trans hp

/-- In a history in which only locks set the loader's hold, the checker never finds a core that
executes a thread it should not, exactly if no step holds a thread for a debugger where it
executes, on a core that was not asked to reschedule. -/
theorem runAll_currentViolations_iff (cores : Nat) (ops : List Operation)
    (h : ∀ t, .setPluginLock t ∉ ops) :
    (∀ done, done <+: ops → ((boot cores).runAll done).currentViolations = []) ↔
      ∀ done op, done ++ [op] <+: ops → ¬op.Freezes ((boot cores).runAll done) := by
  constructor
  · intro hclean done op hdone hfreeze
    have hp := (placed_boot cores).runAll done
    refine hp.currentViolations_of_freezes hfreeze ?_
    rw [← runAll_concat]
    exact hclean _ hdone
  · intro hfree done hdone
    have hp := (placed_boot cores).runAll done
    rw [hp.currentViolations_eq_nil_iff]
    clear hp
    induction done using List.reverseRecOn with
    | nil => exact executes_boot cores
    | append_singleton done op ih =>
      have hbefore : done <+: ops := (List.prefix_append done [op]).trans hdone
      have hop (t : ThreadId) : op ≠ .setPluginLock t := by
        rintro rfl
        exact h t (hdone.subset (by simp))
      rw [runAll_concat]
      exact (ih hbefore).run_eligible ((placed_boot cores).runAll done) hop (hfree done op hdone)

/-- A debugger holds the thread that a core executes, and the core goes on with it. -/
theorem currentViolations_of_debugger :
    ((boot 1).runAll [.createProcess "host" 1, .createThread ⟨1⟩ ⟨0⟩,
      .setThreadState ⟨1⟩ .runnable, .runOnCore ⟨1⟩, .setDebugLock ⟨1⟩ true]).currentViolations =
        [.ineligibleCurrent ⟨0⟩ ⟨1⟩] := by
  decide

/-- The history above has a step that holds a thread where it executes. -/
theorem runAll_currentViolations_debugger :
    let ops : List Operation := [.createProcess "host" 1, .createThread ⟨1⟩ ⟨0⟩,
      .setThreadState ⟨1⟩ .runnable, .runOnCore ⟨1⟩, .setDebugLock ⟨1⟩ true]
    (∀ t, .setPluginLock t ∉ ops) ∧
      ∃ done op, done ++ [op] <+: ops ∧ op.Freezes ((boot 1).runAll done) := by
  intro ops
  have hops : ∀ t, .setPluginLock t ∉ ops := by simp [ops]
  refine ⟨hops, ?_⟩
  by_contra hnone
  simp only [not_exists, not_and] at hnone
  have hclean := (runAll_currentViolations_iff 1 ops hops).mpr hnone ops List.prefix_rfl
  exact absurd hclean (by decide)

end State
end PluginSlot.Kernel
