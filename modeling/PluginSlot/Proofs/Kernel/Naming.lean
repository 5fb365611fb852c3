import PluginSlot.Proofs.History
import PluginSlot.Proofs.Kernel.Accounts
import Mathlib.Data.List.Induction
import Mathlib.Data.Set.Card

/-!
What the handles of a table name. A handle names an object from its insertion until it is removed or
the table is drained, and never names anything again.
-/
namespace PluginSlot.Kernel.HandleTable

/-- Something done with a table. -/
inductive Use where
  | insert (o : ObjectId)
  | get (h : Handle)
  | remove (h : Handle)
  | drain

/-- The handle that is given, if any, and the table after it. -/
def Use.run (t : HandleTable) : Use → Option Handle × HandleTable
  | insert o =>
    match t.insert o with
    | some (h, t) => (some h, t)
    | none => (none, t)
  | get _ => (none, t)
  | remove h => (none, (t.remove h).2)
  | drain => (none, t.drain.2)

/-- All handles that a new table gives, oldest first, and the table in the end. -/
def session (uses : List Use) : List Handle × HandleTable :=
  uses.foldl (fun (given, t) use => (given ++ (use.run t).1.toList, (use.run t).2)) ([], empty)

abbrev given (uses : List Use) : List Handle := (session uses).1

abbrev run (uses : List Use) : HandleTable := (session uses).2

/-- The handle was given for the object, and neither removed nor drained since. -/
def Live (uses : List Use) (h : Handle) (o : ObjectId) : Prop :=
  Since (fun done use => use = .insert o ∧ (use.run (run done)).1 = some h)
    (fun _ use => use = .remove h ∨ use = .drain) uses

/-- What a table tells, in terms of what was done with it. -/
structure Faithful (uses : List Use) : Prop where
  distinct : (given uses).Nodup
  valid : ∀ h ∈ given uses, h ≠ .null ∧ h.val < pseudoHandleBase ∧ h ≠ .currentProcess
  exhausted : ∀ o, (run uses).insert o = none ↔
    (given uses).length = (pseudoHandleBase - firstHandle).toNat
  get : ∀ h o, (run uses).get? h = some o ↔ Live uses h o
  remove : ∀ h, ((run uses).remove h).1 = (run uses).get? h ∧
    ∀ j, ((run uses).remove h).2.get? j = if j = h then none else (run uses).get? j
  ascending : (run uses).entries.Pairwise fun a b => a.1.val < b.1.val
  entries : ∀ h o, (h, o) ∈ (run uses).entries ↔ Live uses h o
  references : ∀ o, (run uses).referencesTo o = {h | Live uses h o}.ncard
  size : (run uses).size = {e : Handle × ObjectId | Live uses e.1 e.2}.ncard

/-- The handles that a table gave are the first ones, in order, and only they are in it. -/
structure Allotted (l : List Handle) (t : HandleTable) : Prop where
  given : l.map (·.val.toNat) = List.range' firstHandle.toNat l.length
  next : t.next.toNat = firstHandle.toNat + l.length
  bound : t.next ≤ pseudoHandleBase
  numbered : t.Numbered
  proper : ∀ h o, t.slots.get? h = some o → firstHandle.toNat ≤ h.val.toNat

section
variable {t u : HandleTable} {l : List Handle} {h : Handle} {o : ObjectId}

theorem allotted_empty : Allotted [] empty :=
  ⟨rfl, rfl, by decide, numbered_empty, fun h o he => by cases he⟩

theorem Allotted.insert (ha : Allotted l t) (hi : t.insert o = some (h, u)) :
    Allotted (l ++ [h]) u := by
  have hnext := toNat_next_insert hi
  obtain ⟨hlt, rfl, -⟩ := insert_eq_some_iff.mp hi
  have hbound := UInt32.lt_iff_toNat_lt.mp hlt
  constructor
  · rw [List.map_append, ha.given, List.length_append, List.length_singleton, List.range'_1_concat,
      ← ha.next]
    rfl
  · rw [hnext, ha.next, List.length_append, List.length_singleton, Nat.add_assoc]
  · rw [UInt32.le_iff_toNat_le, hnext]
    exact hbound
  · exact ha.numbered.insert hi
  · intro j q hj
    rw [slots_insert hi] at hj
    split at hj
    case isTrue he =>
      rw [← he]
      show firstHandle.toNat ≤ t.next.toNat
      rw [ha.next]
      exact Nat.le_add_right _ _
    case isFalse => exact ha.proper j q hj

theorem Allotted.remove (ha : Allotted l t) (h : Handle) : Allotted l (t.remove h).2 where
  given := ha.given
  next := ha.next
  bound := ha.bound
  numbered := ha.numbered.remove h
  proper j q hj := by
    rw [slots_remove] at hj
    split at hj
    case isTrue => cases hj
    case isFalse => exact ha.proper j q hj

theorem Allotted.drain (ha : Allotted l t) : Allotted l t.drain.2 :=
  ⟨ha.given, ha.next, ha.bound, nofun, nofun⟩

theorem Allotted.step (ha : Allotted l t) (use : Use) :
    Allotted (l ++ (use.run t).1.toList) (use.run t).2 := by
  cases use with
  | insert o =>
    rw [Use.run]
    split
    case h_1 hi => exact ha.insert hi
    case h_2 => simpa using ha
  | get h => simpa [Use.run] using ha
  | remove h => simpa [Use.run] using ha.remove h
  | drain => simpa [Use.run] using ha.drain

theorem Allotted.nodup (ha : Allotted l t) : l.Nodup := by
  refine List.Nodup.of_map (fun h : Handle => h.val.toNat) ?_
  rw [ha.given]
  exact List.nodup_range'

theorem Allotted.valid (ha : Allotted l t) (hh : h ∈ l) :
    h ≠ .null ∧ h.val < pseudoHandleBase ∧ h ≠ .currentProcess := by
  have hmem := List.mem_map_of_mem (f := fun h : Handle => h.val.toNat) hh
  rw [ha.given, List.mem_range'_1, ← ha.next] at hmem
  have hbound := UInt32.le_iff_toNat_le.mp ha.bound
  have hlt : h.val < pseudoHandleBase := UInt32.lt_iff_toNat_lt.mpr (Nat.lt_of_lt_of_le hmem.2 hbound)
  refine ⟨?_, hlt, ?_⟩
  · rintro rfl
    exact absurd hmem.1 (by decide)
  · rintro rfl
    exact absurd hlt (by decide)

theorem insert_eq_none_iff : t.insert o = none ↔ pseudoHandleBase ≤ t.next := by
  rw [HandleTable.insert]
  split
  case isTrue hge => exact ⟨fun _ => hge, fun _ => rfl⟩
  case isFalse hlt => exact ⟨fun h => absurd h (Option.some_ne_none _), fun hge => absurd hge hlt⟩

theorem Allotted.exhausted (ha : Allotted l t) (o : ObjectId) :
    t.insert o = none ↔ l.length = (pseudoHandleBase - firstHandle).toNat := by
  have hbound := UInt32.le_iff_toNat_le.mp ha.bound
  have hnext := ha.next
  rw [insert_eq_none_iff, UInt32.le_iff_toNat_le]
  have hfirst : firstHandle.toNat = 0x100 := rfl
  have hbase : pseudoHandleBase.toNat = 0xFFFF8000 := rfl
  have hroom : (pseudoHandleBase - firstHandle).toNat = 0xFFFF7F00 := rfl
  omega

/-- The null handle is never given out, so no look-up has to make an exception for it. -/
theorem Allotted.get? (ha : Allotted l t) (h : Handle) : t.get? h = t.slots.get? h := by
  rw [HandleTable.get?]
  split
  case isTrue hnull =>
    rw [(Handle.isNull_iff h).mp hnull]
    refine (Option.eq_none_iff_forall_ne_some.mpr fun o ho => ?_).symm
    exact absurd (ha.proper _ o ho) (by decide)
  case isFalse => rfl

end

theorem ncard_eq_length {α : Type} {s : Set α} {l : List α} (hl : l.Nodup)
    (hs : ∀ a, a ∈ s ↔ a ∈ l) : s.ncard = l.length := by
  classical
  have hset : s = l.toFinset := by
    ext a
    simp [hs]
  rw [hset, Set.ncard_coe_finset, List.toFinset_card_of_nodup hl]

section
variable (uses : List Use)

theorem session_concat (use : Use) : session (uses ++ [use]) =
    (given uses ++ (use.run (run uses)).1.toList, (use.run (run uses)).2) := by
  rw [session, List.foldl_append]
  rfl

theorem allotted_session : Allotted (given uses) (run uses) := by
  induction uses using List.reverseRecOn with
  | nil => exact allotted_empty
  | append_singleton uses use ih =>
    rw [given, run, session_concat]
    exact ih.step use

section
variable {uses} {t : HandleTable} {h j : Handle} {o q : ObjectId}

theorem live_insert (hi : (run uses).insert q = some (j, t)) :
    Live (uses ++ [.insert q]) h o ↔ (j = h ∧ q = o) ∨ Live uses h o := by
  have hrun : (Use.insert q).run (run uses) = (some j, t) := by rw [Use.run, hi]
  simp [Live, since_concat, hrun, and_comm]

theorem live_insert_of_none (hi : (run uses).insert q = none) :
    Live (uses ++ [.insert q]) h o ↔ Live uses h o := by
  have hrun : (Use.insert q).run (run uses) = (none, run uses) := by rw [Use.run, hi]
  simp [Live, since_concat, hrun]

theorem live_remove : Live (uses ++ [.remove j]) h o ↔ j ≠ h ∧ Live uses h o := by
  simp [Live, since_concat, and_comm]

theorem not_live_drain : ¬Live (uses ++ [.drain]) h o := by
  simp [Live, since_concat]

/-- The next handle was never given before. -/
theorem not_live_of_insert (ih : (run uses).slots.get? h = some o ↔ Live uses h o)
    (hi : (run uses).insert q = some (h, t)) : ¬Live uses h o := by
  obtain ⟨-, rfl, -⟩ := insert_eq_some_iff.mp hi
  rw [← ih, (allotted_session uses).numbered.get?_next]
  exact nofun

theorem slots_insert_iff_live (ih : (run uses).slots.get? h = some o ↔ Live uses h o) (q : ObjectId) :
    ((Use.insert q).run (run uses)).2.slots.get? h = some o ↔ Live (uses ++ [.insert q]) h o := by
  rw [Use.run]
  split
  case h_1 j t hi =>
    rw [live_insert hi, slots_insert hi]
    by_cases hj : j = h
    · have hnew := not_live_of_insert ih (hj ▸ hi)
      simp [hj, hnew]
    · simp [hj, ih]
  case h_2 hi => rw [live_insert_of_none hi, ih]

end

/-- A handle names an object as long as it is live. -/
theorem slots_iff_live (h : Handle) (o : ObjectId) :
    (run uses).slots.get? h = some o ↔ Live uses h o := by
  induction uses using List.reverseRecOn with
  | nil => exact ⟨nofun, fun hlive => absurd hlive not_since_nil⟩
  | append_singleton uses use ih =>
    rw [run, session_concat]
    cases use with
    | insert q => exact slots_insert_iff_live ih q
    | get j => exact ih.trans (since_of_other nofun nofun).symm
    | remove j =>
      show ((run uses).remove j).2.slots.get? h = some o ↔ _
      rw [slots_remove, live_remove, ← ih]
      by_cases hj : j = h <;> simp [hj]
    | drain => exact ⟨nofun, fun hlive => absurd hlive not_live_drain⟩

theorem mem_entries_iff_live (h : Handle) (o : ObjectId) :
    (h, o) ∈ (run uses).entries ↔ Live uses h o :=
  ((run uses).slots.get?_eq_some_iff h o).symm.trans (slots_iff_live uses h o)

/-- Entries with an object are as many as the handles that name it. -/
theorem referencesTo_eq (o : ObjectId) :
    (run uses).referencesTo o = {h | Live uses h o}.ncard := by
  have hkeys : (((run uses).entries.filter (·.2 = o)).map (·.1)).Nodup :=
    (run uses).slots.nodup_keys.sublist (List.filter_sublist.map _)
  have hmem (h : Handle) : h ∈ {h | Live uses h o} ↔
      h ∈ ((run uses).entries.filter (·.2 = o)).map (·.1) := by
    rw [Set.mem_ofPred_eq, ← mem_entries_iff_live]
    simp
  rw [ncard_eq_length hkeys hmem, List.length_map, referencesTo, Table.values, List.countP_map,
    List.countP_eq_length_filter]
  rfl

theorem size_eq : (run uses).size = {e : Handle × ObjectId | Live uses e.1 e.2}.ncard :=
  (ncard_eq_length (run uses).slots.nodup_entries fun e =>
    (mem_entries_iff_live uses e.1 e.2).symm).symm

/-- A handle names what it was given for until it is removed or drained, and then nothing for ever,
whatever was done with the table. -/
theorem faithful_session : Faithful uses := by
  have ha := allotted_session uses
  exact {
    distinct := ha.nodup
    valid := fun h hh => ha.valid hh
    exhausted := ha.exhausted
    get := fun h o => by rw [ha.get?, slots_iff_live]
    remove := fun h => by
      refine ⟨(ha.get? h).symm, fun j => ?_⟩
      rw [(ha.remove h).get?, slots_remove, ha.get?]
      simp only [eq_comm]
    ascending := (run uses).slots.ascending.imp fun hlt => UInt32.lt_iff_toNat_lt.mpr hlt
    entries := mem_entries_iff_live uses
    references := referencesTo_eq uses
    size := size_eq uses }

end
end PluginSlot.Kernel.HandleTable
