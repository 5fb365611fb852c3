import PluginSlot.Loader.Invariant
import PluginSlot.Platform.Stub
import PluginSlot.Proofs.Loader.Upkeep
import Mathlib.Data.List.Induction

/-!
Operations one after the other, each with a record of what the platform answered. The memory of the
plugin is where the state of the slot says, after all of them, exactly if the platform never refuses
to unmap it.
-/
namespace PluginSlot
open Platform Loader Occupancy

namespace Service
variable {σ : Type} {p : Platform σ}

/-- One operation, with a record of its own. -/
def attempt (p : Platform σ) (op : Operation) (m : Machine Loader (σ × List Observation)) :
    Outcome × Machine Loader (σ × List Observation) :=
  op.run (recorder p) { m with platform := (m.platform.1, []) }

/-- The loader after these operations; the record is that of the last one. -/
def course (p : Platform σ) (config : Config) (s : σ) (ops : List Operation) :
    Machine Loader (σ × List Observation) :=
  ops.foldl (fun m op => (attempt p op m).2) (start (recorder p) (machine config (s, []))).2

theorem course_concat (p : Platform σ) (config : Config) (s : σ) (ops : List Operation)
    (op : Operation) :
    course p config s (ops ++ [op]) = (attempt p op (course p config s ops)).2 := by
  simp [course, List.foldl_append]

/-- An operation begins with nothing refused. -/
theorem fresh_of_kempt {b : Prop} {m : Machine Loader (σ × List Observation)}
    (hm : (occupancy m).Kempt) (hb : b → (occupancy m).InPlace) :
    (occupancy { m with platform := (m.platform.1, []) }).Fresh b :=
  ⟨⟨hm.exitPending, hm.tasks, hm.running, hm.empty⟩, rfl, hb⟩

theorem settled_attempt {b : Prop} {m : Machine Loader (σ × List Observation)} (op : Operation)
    (hm : (occupancy m).Kempt) (hb : b → (occupancy m).InPlace) :
    (occupancy (attempt p op m).2).Settled b :=
  leads_operation_of_fresh op _ (fresh_of_kempt hm hb)

/-- The slot is in order, with its memory in place, before the first operation. -/
theorem fresh_course_nil (p : Platform σ) (config : Config) (s : σ) :
    (occupancy (course p config s [])).Fresh True := by
  have hstart : start.Ensures (recorder p) _ _ :=
    ensures_start (central_occupancy (· = occupancy (machine config (s, []))))
      ((internal_occupancy (· = occupancy (machine config (s, [])))).status _)
  have hsame : occupancy (course p config s []) = occupancy (machine config (s, [])) :=
    hstart (machine config (s, [])) rfl
  rw [hsame]
  exact ⟨⟨rfl, rfl, nofun, fun _ => ⟨rfl, .inl rfl⟩⟩, rfl, fun _ => rfl⟩

theorem kempt_course (p : Platform σ) (config : Config) (s : σ) (ops : List Operation) :
    (occupancy (course p config s ops)).Kempt := by
  induction ops using List.reverseRecOn with
  | nil => exact (fresh_course_nil p config s).toKempt
  | append_singleton ops op ih =>
    rw [course_concat]
    exact (settled_attempt (b := False) op ih nofun).toKempt

end Service

namespace Loader
variable {σ : Type}

theorem memoryFits_iff_inPlace (m : Machine Loader (σ × List Observation)) :
    m.client.memoryFits = true ↔ (occupancy m).InPlace := by
  have hstate : (occupancy m).state = m.client.state := rfl
  rw [memoryFits, InPlace, hstate]
  cases m.client.state with
  | empty => exact m.client.block.isFree_iff
  | running => exact m.client.block.isMounted_iff
  | swapped =>
    dsimp only
    rw [Bool.not_eq_true', ← Bool.not_eq_true]
    exact not_congr m.client.block.isMounted_iff

/-- The checker reports the memory just when it is not in its place. -/
theorem memoryFits_iff_violations (l : Loader) (word : UInt32) :
    l.memoryFits = true ↔ ∀ v ∈ l.violations word, v.invariant ≠ "memory_placement" := by
  unfold violations
  cases l.memoryFits <;> cases l.targetFits <;> cases l.statusFits word <;>
    simp [Violation.invariant]

end Loader

namespace Service
variable {σ : Type}

/-- Memory in its place stays there while no unmapping is refused. -/
theorem inPlace_course_append {config : Config} {s : σ} {ops : List Operation}
    (hin : (occupancy (course p config s ops)).InPlace) {more : List Operation}
    (hclean : ∀ done op, done ++ [op] <+: more →
      (occupancy (course p config s (ops ++ (done ++ [op])))).unmapFailed = false) :
    (occupancy (course p config s (ops ++ more))).InPlace := by
  induction more using List.reverseRecOn with
  | nil => rwa [List.append_nil]
  | append_singleton done op ih =>
    have hafter := hclean done op List.prefix_rfl
    have hbefore := ih fun first next hfirst =>
      hclean first next (hfirst.trans (List.prefix_append done [op]))
    rw [← List.append_assoc, course_concat] at hafter ⊢
    have hsettled := settled_attempt (p := p) op (kempt_course p config s (ops ++ done))
      fun _ : True => hbefore
    exact hsettled.inPlace trivial hafter

theorem course_inPlace_iff (p : Platform σ) (config : Config) (s : σ) (ops : List Operation) :
    (∀ done, done <+: ops → (occupancy (course p config s done)).InPlace) ↔
      ∀ done, done <+: ops → (occupancy (course p config s done)).unmapFailed = false := by
  constructor
  · intro hplace done hdone
    have hin := hplace done hdone
    clear hdone
    induction done using List.reverseRecOn with
    | nil => exact (fresh_course_nil p config s).clean
    | append_singleton done op _ =>
      rw [course_concat] at hin ⊢
      have hsettled := settled_attempt (p := p) (b := False) op (kempt_course p config s done) nofun
      exact Bool.eq_false_iff.mpr fun hf => hsettled.outOfPlace hf hin
  · intro hclean done hdone
    have hstart := (fresh_course_nil p config s).inPlace trivial
    exact inPlace_course_append hstart fun first op hfirst => hclean _ (hfirst.trans hdone)

/-- The memory stays where the state of the slot says, whatever else fails, exactly if no operation
meets with a refusal to unmap it. -/
theorem course_memoryFits_iff (p : Platform σ) (config : Config) (s : σ) (ops : List Operation) :
    (∀ done, done <+: ops → (course p config s done).client.memoryFits = true ∧
        ∀ word, ∀ v ∈ (course p config s done).client.violations word,
          v.invariant ≠ "memory_placement") ↔
      ∀ done, done <+: ops → ∀ o ∈ (course p config s done).platform.2,
        o.isFailedUnmap = false := by
  have hplace (m : Machine Loader (σ × List Observation)) :
      (m.client.memoryFits = true ∧ ∀ word, ∀ v ∈ m.client.violations word,
        v.invariant ≠ "memory_placement") ↔ (occupancy m).InPlace := by
    rw [← memoryFits_iff_inPlace]
    exact ⟨And.left, fun h => ⟨h, fun word => (memoryFits_iff_violations _ word).mp h⟩⟩
  have hclean (m : Machine Loader (σ × List Observation)) :
      (occupancy m).unmapFailed = false ↔ ∀ o ∈ m.platform.2, o.isFailedUnmap = false := by
    simp [occupancy]
  calc
    _ ↔ ∀ done, done <+: ops → (occupancy (course p config s done)).InPlace :=
      forall₂_congr fun done _ => hplace _
    _ ↔ ∀ done, done <+: ops → (occupancy (course p config s done)).unmapFailed = false :=
      course_inPlace_iff p config s ops
    _ ↔ _ := forall₂_congr fun done _ => hclean _

end Service

/-- The smallest platform, but that it refuses to unmap memory. -/
def Platform.Stub.retentive : Platform Stub where
  answer
    | .unmap _ _, s => (.error .mappingFailed, s)
    | c, s => Stub.answer c s

namespace Service

/-- A plugin that is to be swapped out stays mounted, and counts as swapped out. -/
theorem not_memoryFits_of_refused_unmap :
    (course Stub.retentive .default .initial
        [.setEnabled true, .load ⟨0x102⟩, .post Wire.Status.swapEvent true]).client.state = .swapped ∧
      (course Stub.retentive .default .initial
        [.setEnabled true, .load ⟨0x102⟩, .post Wire.Status.swapEvent true]).client.memoryFits = false := by
  decide +kernel

end Service
end PluginSlot
