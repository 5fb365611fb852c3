import Mathlib.Data.List.Infix

/-!
Histories, as lists of steps. What was begun by one of the steps lasts until a later one ends it.
-/
namespace PluginSlot
variable {α : Type} {begins ends : List α → α → Prop} {ops : List α} {op : α}

/-- The steps of a history are its last one and those before. -/
theorem forall_step_concat {P : List α → α → Prop} (ops : List α) (op : α) :
    (∀ done next, done ++ [next] <+: ops ++ [op] → P done next) ↔
      P ops op ∧ ∀ done next, done ++ [next] <+: ops → P done next := by
  constructor
  · intro h
    refine ⟨h ops op List.prefix_rfl, ?_⟩
    intro done next hstep
    exact h done next (hstep.trans (List.prefix_append ops [op]))
  · rintro ⟨hlast, hbefore⟩ done next hstep
    cases List.prefix_concat_iff.mp hstep with
    | inl heq =>
      obtain ⟨rfl, hnext⟩ := List.append_inj' heq rfl
      cases hnext
      exact hlast
    | inr hstep => exact hbefore done next hstep

/-- One step began it, and no later step has ended it. What a step does may depend on those before. -/
def Since (begins ends : List α → α → Prop) (ops : List α) : Prop :=
  ∃ done op rest, ops = done ++ op :: rest ∧ begins done op ∧
    ∀ between next, between ++ [next] <+: rest → ¬ends (done ++ op :: between) next

theorem not_since_nil : ¬Since begins ends [] := by
  rintro ⟨done, op, rest, heq, -⟩
  cases done <;> cases heq

theorem since_concat :
    Since begins ends (ops ++ [op]) ↔ begins ops op ∨ Since begins ends ops ∧ ¬ends ops op := by
  constructor
  · rintro ⟨done, first, rest, heq, hbegins, hkept⟩
    obtain rfl | ⟨rest, last, rfl⟩ := rest.eq_nil_or_concat
    · obtain ⟨rfl, hop⟩ := List.append_inj' heq rfl
      cases hop
      exact .inl hbegins
    · rw [List.concat_eq_append] at heq hkept
      rw [← List.cons_append, ← List.append_assoc] at heq
      obtain ⟨rfl, hop⟩ := List.append_inj' heq rfl
      cases hop
      obtain ⟨hlast, hbefore⟩ := (forall_step_concat rest op).mp hkept
      exact .inr ⟨⟨done, first, rest, rfl, hbegins, hbefore⟩, hlast⟩
  · rintro (hbegins | ⟨⟨done, first, rest, rfl, hbegins, hbefore⟩, hlast⟩)
    · exact ⟨ops, op, [], rfl, hbegins, by simp⟩
    · exact ⟨done, first, rest ++ [op], by simp, hbegins,
        (forall_step_concat rest op).mpr ⟨hlast, hbefore⟩⟩

/-- A step that neither begins nor ends it makes no difference. -/
theorem since_of_other (hbegins : ¬begins ops op) (hends : ¬ends ops op) :
    Since begins ends (ops ++ [op]) ↔ Since begins ends ops := by
  simp [since_concat, hbegins, hends]

end PluginSlot
