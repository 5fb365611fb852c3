import PluginSlot.Proofs.Loader.Lifecycle
import PluginSlot.Proofs.Loader.Order

/-!
Whether the target tells that a plugin is loaded. The null handle stands for an empty slot, but it can
be loaded like any other; then the target no longer tells, and a shutdown, which goes by the target,
leaves the plugin where it is.
-/
namespace PluginSlot
open Platform Loader Kernel

namespace Loader

theorem targetFits_iff (l : Loader) :
    l.targetFits = true ↔ (l.target = .null ↔ l.state = .empty) := by
  rw [← l.target.isNull_iff, targetFits, decide_eq_true_iff, eq_iff_iff]

namespace Standing
variable {v w : Standing}

/-- The target is null just when the slot is empty. -/
def Telling (v : Standing) : Prop := v.target = .null ↔ v.state = .empty

theorem Telling.move (hv : v.Telling) {state : SlotState} (hs : v.state ≠ .empty)
    (hstate : state ≠ .empty) : (v.move state).Telling :=
  iff_of_false (mt hv.mp hs) hstate

theorem Notified.telling {r : Except Error Unit} (h : v.Notified r w) (hv : v.Telling) :
    w.Telling := by
  have hconsumed : v.consume.Telling := hv
  cases h with
  | exited => exact iff_of_true rfl rfl
  | swappedOut _ hs | swappedIn _ hs =>
    refine hconsumed.move ?_ nofun
    show v.state ≠ .empty
    rw [hs]
    nofun
  | _ => exact hconsumed

end Standing
end Loader

namespace Service
open Conduct
variable {σ : Type} {v w : Standing} {op : Operation} {outcome : Outcome}

/-- The null handle is loaded into an empty slot. -/
def Operation.LoadsNull (op : Operation) (v w : Standing) : Prop :=
  op.loads? = some .null ∧ v.state = .empty ∧ w.state ≠ .empty

/-- Only a load of the null handle keeps the target from telling. -/
theorem Operation.Effect.telling (h : op.Effect v outcome w) (hv : v.Telling)
    (hop : ¬op.LoadsNull v w) : w.Telling := by
  refine h.preserves ?_ ?_ ?_ ?_
  · exact fun _ _ => hv
  · exact fun _ _ _ hr hu => hr.telling hu
  · exact fun _ => iff_of_true rfl rfl
  · rintro target hs htarget rfl
    refine iff_of_false (fun hnull => hop ⟨?_, hs, nofun⟩) nofun
    rw [htarget, show target = .null from hnull]

/-- A load of the null handle does keep it. -/
theorem Operation.Effect.not_telling (h : op.Effect v outcome w) (hop : op.LoadsNull v w) :
    ¬w.Telling := by
  obtain ⟨hnull, hs, hloaded⟩ := hop
  have hquiet : op.isQuiet = true := by
    cases op with
    | handleNotification | post _ _ | setStatus _ | shutdown => cases hnull
    | _ => rfl
  obtain rfl | ⟨-, target, htarget, rfl⟩ := h.of_quiet hquiet
  · exact absurd hs hloaded
  · cases hnull.symm.trans htarget
    exact fun htelling => hloaded (htelling.mp rfl)

variable (p : Platform σ) (config : Config) (s : σ)

theorem telling_career_iff (ops : List Operation) :
    (∀ done, done <+: ops → (standing (career p config s done)).Telling) ↔
      ∀ done op, done ++ [op] <+: ops →
        ¬op.LoadsNull (standing (career p config s done)) (standing (career p config s (done ++ [op]))) := by
  constructor
  · intro htelling done op hdone hnull
    exact (effect_career p config s done op).not_telling hnull (htelling _ hdone)
  · intro hops done hdone
    induction done using List.reverseRecOn with
    | nil =>
      rw [(career_nil p config s).2]
      exact iff_of_true rfl rfl
    | append_singleton done op ih =>
      have hbefore := ih ((List.prefix_append done [op]).trans hdone)
      exact (effect_career p config s done op).telling hbefore (hops done op hdone)

/-- A shutdown empties the slot just when the target tells what is in it. -/
theorem state_shutdown_iff (ops : List Operation) :
    (career p config s (ops ++ [.shutdown])).client.state = .empty ↔
      (standing (career p config s ops)).Telling := by
  have hidle := (filed_idle_career p config s ops).2
  have hafter : (career p config s (ops ++ [.shutdown])).client.state = _ :=
    congrArg Standing.state (effect_career p config s ops .shutdown)
  rw [hafter]
  by_cases htarget : (standing (career p config s ops)).target = .null
  · rw [if_pos htarget]
    exact ⟨fun hs => iff_of_true htarget hs, fun h => h.mp htarget⟩
  · rw [if_neg htarget]
    exact iff_of_true rfl (iff_of_false htarget (mt hidle.target htarget))

/-- The target tells whether a plugin is loaded, all the time, exactly if the null handle is never
loaded into the empty slot. A shutdown empties the slot exactly if the target tells at that moment;
then the memory is gone too, unless the platform has refused to unmap it. -/
theorem career_targetFits_iff (ops : List Operation) :
    ((∀ done, done <+: ops → (career p config s done).client.targetFits = true) ↔
      ∀ done op, done ++ [op] <+: ops → op.loads? = some .null →
        (career p config s done).client.state = .empty →
        (career p config s (done ++ [op])).client.state = .empty) ∧
    ((career p config s (ops ++ [.shutdown])).client.state = .empty ↔
      (career p config s ops).client.targetFits = true) ∧
    ((career p config s (ops ++ [.shutdown])).client.state = .empty →
      (career p config s (ops ++ [.shutdown])).client.target = .null ∧
      ((career p config s (ops ++ [.shutdown])).client.block.isFree = true ∨
        (ledger (career p config s (ops ++ [.shutdown])).platform.2).refused = true)) := by
  refine ⟨?_, ?_, fun hs => ?_⟩
  · calc
      _ ↔ ∀ done, done <+: ops → (standing (career p config s done)).Telling :=
        forall₂_congr fun done _ => targetFits_iff _
      _ ↔ _ := telling_career_iff p config s ops
      _ ↔ _ := by simp only [Operation.LoadsNull, not_and, not_not]; rfl
  · rw [state_shutdown_iff, targetFits_iff]
    rfl
  · cases (atRest_career p config s (ops ++ [.shutdown])).2 with
    | vacant _ htarget hv =>
      refine ⟨htarget, ?_⟩
      cases hv with
      | free h =>
        have hfree : (career p config s (ops ++ [.shutdown])).client.block.placement = .free := h
        exact .inl (by rw [Region.Block.isFree, hfree])
      | leftover _ _ hr => exact .inr hr
    | running h | swapped h => cases hs.symm.trans h.state

/-- The null handle is loaded, and a shutdown does not see it. -/
theorem null_loaded :
    (career Stub.platform .default .initial [.setEnabled true, .load .null]).client.state = .running ∧
      (career Stub.platform .default .initial
        [.setEnabled true, .load .null]).client.targetFits = false ∧
      (career Stub.platform .default .initial
        [.setEnabled true, .load .null, .shutdown]).client.state = .running ∧
      (career Stub.platform .default .initial
        [.setEnabled true, .load .null, .shutdown]).client.block.isMounted = true := by
  decide +kernel

end Service
end PluginSlot
