/-!
Finite maps kept as entries in strictly ascending key order. Two maps that answer every look-up
alike are equal, and walking a map visits its keys in order.
-/
namespace PluginSlot

/-- Keys ordered by a number that identifies them. -/
class Key (κ : Type) where
  rank : κ → Nat
  rank_inj : ∀ {a b : κ}, rank a = rank b → a = b

instance : Key UInt32 where
  rank w := w.toNat
  rank_inj h := UInt32.toNat_inj.mp h

structure Table (κ α : Type) [Key κ] where
  entries : List (κ × α)
  ascending : entries.Pairwise fun a b => Key.rank a.1 < Key.rank b.1

namespace Table
variable {κ α β γ : Type} [Key κ]

def find (k : κ) : List (κ × α) → Option α
  | [] => none
  | (j, a) :: rest => if Key.rank j = Key.rank k then some a else find k rest

def put (k : κ) (a : α) : List (κ × α) → List (κ × α)
  | [] => [(k, a)]
  | (j, b) :: rest =>
    if Key.rank k < Key.rank j then (k, a) :: (j, b) :: rest
    else if Key.rank k = Key.rank j then (k, a) :: rest
    else (j, b) :: put k a rest

theorem mem_put (k : κ) (a : α) (entries : List (κ × α)) (e : κ × α)
    (h : e ∈ put k a entries) : e = (k, a) ∨ e ∈ entries := by
  induction entries with
  | nil => simpa [put] using h
  | cons x rest ih =>
    simp only [put] at h
    split at h
    · simpa using h
    · split at h
      · rcases List.mem_cons.mp h with h | h
        · exact .inl h
        · exact .inr (by simp [h])
      · rcases List.mem_cons.mp h with h | h
        · exact .inr (by simp [h])
        · rcases ih h with h | h
          · exact .inl h
          · exact .inr (by simp [h])

theorem put_ascending (k : κ) (a : α) (entries : List (κ × α))
    (h : entries.Pairwise fun x y => Key.rank x.1 < Key.rank y.1) :
    (put k a entries).Pairwise fun x y => Key.rank x.1 < Key.rank y.1 := by
  induction entries with
  | nil => simp [put]
  | cons x rest ih =>
    obtain ⟨hx, hrest⟩ := List.pairwise_cons.mp h
    simp only [put]
    split
    case isTrue hlt =>
      refine List.pairwise_cons.mpr ⟨fun y hy => ?_, h⟩
      rcases List.mem_cons.mp hy with rfl | hy
      · exact hlt
      · exact Nat.lt_trans hlt (hx y hy)
    case isFalse hge =>
      split
      case isTrue heq =>
        refine List.pairwise_cons.mpr ⟨fun y hy => ?_, hrest⟩
        have := hx y hy
        show Key.rank k < Key.rank y.1
        omega
      case isFalse hne =>
        refine List.pairwise_cons.mpr ⟨fun y hy => ?_, ih hrest⟩
        rcases mem_put k a rest y hy with rfl | hy
        · show Key.rank x.1 < Key.rank k
          omega
        · exact hx y hy

theorem find_put (k j : κ) (a : α) (entries : List (κ × α)) :
    find j (put k a entries) = if Key.rank k = Key.rank j then some a else find j entries := by
  induction entries with
  | nil => simp [put, find]
  | cons x rest ih =>
    simp only [put]
    split
    · simp [find]
    · split
      · by_cases h : Key.rank k = Key.rank j
        · simp [find, h]
        · have : Key.rank x.1 ≠ Key.rank j := by omega
          simp [find, h, this]
      · simp only [find, ih]
        by_cases hx : Key.rank x.1 = Key.rank j
        · have : Key.rank k ≠ Key.rank j := by omega
          simp [hx, this]
        · simp [hx]

def empty : Table κ α := ⟨[], List.Pairwise.nil⟩

instance : Inhabited (Table κ α) := ⟨empty⟩

def get? (t : Table κ α) (k : κ) : Option α := find k t.entries

def contains (t : Table κ α) (k : κ) : Bool := (t.get? k).isSome

def insert (t : Table κ α) (k : κ) (a : α) : Table κ α :=
  ⟨put k a t.entries, put_ascending k a t.entries t.ascending⟩

def erase (t : Table κ α) (k : κ) : Table κ α :=
  ⟨t.entries.filter fun e => Key.rank e.1 ≠ Key.rank k, t.ascending.filter _⟩

/-- Change every value; the keys stay. -/
def mapValues (t : Table κ α) (f : κ → α → β) : Table κ β :=
  ⟨t.entries.map fun e => (e.1, f e.1 e.2), by
    rw [List.pairwise_map]; exact t.ascending⟩

def modify (t : Table κ α) (k : κ) (f : α → α) : Table κ α :=
  t.mapValues fun j a => if Key.rank j = Key.rank k then f a else a

def keys (t : Table κ α) : List κ := t.entries.map (·.1)
def values (t : Table κ α) : List α := t.entries.map (·.2)
def size (t : Table κ α) : Nat := t.entries.length
def isEmpty (t : Table κ α) : Bool := t.entries.isEmpty

@[simp] theorem get?_empty (k : κ) : (empty : Table κ α).get? k = none := rfl

theorem get?_insert (t : Table κ α) (k j : κ) (a : α) :
    (t.insert k a).get? j = if Key.rank k = Key.rank j then some a else t.get? j :=
  find_put k j a t.entries

@[simp] theorem get?_insert_self (t : Table κ α) (k : κ) (a : α) :
    (t.insert k a).get? k = some a := by simp [get?_insert]

theorem get?_insert_ne (t : Table κ α) {k j : κ} (h : k ≠ j) (a : α) :
    (t.insert k a).get? j = t.get? j := by
  rw [get?_insert, if_neg fun hr => h (Key.rank_inj hr)]

theorem get?_erase (t : Table κ α) (k j : κ) :
    (t.erase k).get? j = if Key.rank k = Key.rank j then none else t.get? j := by
  obtain ⟨entries, h⟩ := t
  simp only [erase, get?]
  clear h
  induction entries with
  | nil => simp [find]
  | cons x rest ih =>
    simp only [List.filter_cons]
    by_cases hx : Key.rank x.1 = Key.rank k
    · simp only [hx, ne_eq, not_true_eq_false, decide_false, Bool.false_eq_true, if_false, ih,
        find]
      by_cases hk : Key.rank k = Key.rank j <;> simp [hk]
    · simp only [hx, ne_eq, not_false_eq_true, decide_true, if_true, find, ih]
      by_cases hj : Key.rank x.1 = Key.rank j
      · have : Key.rank k ≠ Key.rank j := by omega
        simp [hj, this]
      · simp [hj]

@[simp] theorem get?_erase_self (t : Table κ α) (k : κ) : (t.erase k).get? k = none := by
  simp [get?_erase]

theorem get?_erase_ne (t : Table κ α) {k j : κ} (h : k ≠ j) : (t.erase k).get? j = t.get? j := by
  rw [get?_erase, if_neg fun hr => h (Key.rank_inj hr)]

theorem get?_mapValues (t : Table κ α) (f : κ → α → β) (k : κ) :
    (t.mapValues f).get? k = (t.get? k).map (f k) := by
  obtain ⟨entries, h⟩ := t
  simp only [mapValues, get?]
  clear h
  induction entries with
  | nil => rfl
  | cons x rest ih =>
    simp only [List.map_cons, find, ih]
    by_cases hx : Key.rank x.1 = Key.rank k
    · simp [Key.rank_inj hx]
    · simp [hx]

theorem get?_modify (t : Table κ α) (k j : κ) (f : α → α) :
    (t.modify k f).get? j = if Key.rank k = Key.rank j then (t.get? j).map f else t.get? j := by
  rw [modify, get?_mapValues]
  by_cases h : Key.rank k = Key.rank j
  · simp [h]
  · have h' : Key.rank j ≠ Key.rank k := fun e => h e.symm
    cases t.get? j <;> simp [h, h']

@[simp] theorem get?_modify_self (t : Table κ α) (k : κ) (f : α → α) :
    (t.modify k f).get? k = (t.get? k).map f := by simp [get?_modify]

theorem get?_modify_ne (t : Table κ α) {k j : κ} (h : k ≠ j) (f : α → α) :
    (t.modify k f).get? j = t.get? j := by
  rw [get?_modify, if_neg fun hr => h (Key.rank_inj hr)]

theorem of_get?_insert {t : Table κ α} {k j : κ} {a b : α} (h : (t.insert k a).get? j = some b) :
    k = j ∧ b = a ∨ t.get? j = some b := by
  rw [get?_insert] at h
  split at h
  next he => exact .inl ⟨Key.rank_inj he, (Option.some.inj h).symm⟩
  next => exact .inr h

theorem of_get?_erase {t : Table κ α} {k j : κ} {a : α} (h : (t.erase k).get? j = some a) :
    j ≠ k ∧ t.get? j = some a := by
  rw [get?_erase] at h
  split at h
  · cases h
  next hne => exact ⟨fun he => hne (he ▸ rfl), h⟩

theorem of_get?_modify {t : Table κ α} {k j : κ} {f : α → α} {b : α}
    (h : (t.modify k f).get? j = some b) :
    ∃ a, t.get? j = some a ∧ (k = j ∧ b = f a ∨ k ≠ j ∧ b = a) := by
  rw [get?_modify] at h
  split at h
  next he =>
    obtain ⟨a, ha, rfl⟩ := Option.map_eq_some_iff.mp h
    exact ⟨a, ha, .inl ⟨Key.rank_inj he, rfl⟩⟩
  next hne => exact ⟨b, h, .inr ⟨fun he => hne (he ▸ rfl), rfl⟩⟩

theorem modify_eq_mapValues [DecidableEq κ] (t : Table κ α) (k : κ) (f : α → α) :
    t.modify k f = t.mapValues fun j a => if j = k then f a else a := by
  have hkey (j : κ) : Key.rank j = Key.rank k ↔ j = k := ⟨Key.rank_inj, congrArg Key.rank⟩
  simp only [modify, hkey]

theorem mapValues_mapValues (t : Table κ α) (f : κ → α → β) (g : κ → β → γ) :
    (t.mapValues f).mapValues g = t.mapValues fun k a => g k (f k a) := by
  simp [mapValues, Function.comp_def]

theorem mapValues_id (t : Table κ α) : (t.mapValues fun _ a => a) = t := by simp [mapValues]

theorem find_eq_some_iff (k : κ) (a : α) (entries : List (κ × α))
    (h : entries.Pairwise fun x y => Key.rank x.1 < Key.rank y.1) :
    find k entries = some a ↔ (k, a) ∈ entries := by
  induction entries with
  | nil => simp [find]
  | cons x rest ih =>
    obtain ⟨hx, hrest⟩ := List.pairwise_cons.mp h
    simp only [find, List.mem_cons]
    by_cases hk : Key.rank x.1 = Key.rank k
    · have hnot : (k, a) ∉ rest := fun hm => by
        have hlt := hx _ hm
        simp only at hlt
        omega
      have hkey := Key.rank_inj hk
      simp only [hk, if_true, hnot, or_false]
      constructor
      · intro he
        cases he
        rw [← hkey]
      · intro he
        rw [← he]
    · rw [if_neg hk, ih hrest]
      constructor
      · exact .inr
      · rintro (he | hm)
        · exact absurd (by rw [← he]) hk
        · exact hm

/-- A look-up answers exactly the entries. -/
theorem get?_eq_some_iff (t : Table κ α) (k : κ) (a : α) :
    t.get? k = some a ↔ (k, a) ∈ t.entries :=
  find_eq_some_iff k a t.entries t.ascending

theorem mapValues_congr {t : Table κ α} {f g : κ → α → β}
    (h : ∀ k a, t.get? k = some a → f k a = g k a) : t.mapValues f = t.mapValues g := by
  have hentries : t.entries.map (fun e => (e.1, f e.1 e.2)) =
      t.entries.map fun e => (e.1, g e.1 e.2) := by
    refine List.map_congr_left fun e he => ?_
    rw [h e.1 e.2 ((t.get?_eq_some_iff e.1 e.2).mpr he)]
  simp only [mapValues, hentries]

theorem nodup_keys (t : Table κ α) : t.keys.Nodup := by
  refine List.pairwise_map.mpr (t.ascending.imp fun h he => ?_)
  rw [he] at h
  exact Nat.lt_irrefl _ h

theorem nodup_entries (t : Table κ α) : t.entries.Nodup :=
  t.ascending.imp fun h he => absurd (he ▸ h) (Nat.lt_irrefl _)

/-- A table that has one key more than another has one entry more. -/
theorem entries_perm_cons {t u : Table κ α} {k : κ} {a : α} (hnew : u.get? k = none)
    (h : ∀ j, t.get? j = if Key.rank k = Key.rank j then some a else u.get? j) :
    t.entries.Perm ((k, a) :: u.entries) := by
  have hnot : (k, a) ∉ u.entries := fun hm => by
    have hsome := (u.get?_eq_some_iff k a).mpr hm
    simp [hnew] at hsome
  refine (List.perm_ext_iff_of_nodup t.nodup_entries
    (List.nodup_cons.mpr ⟨hnot, u.nodup_entries⟩)).mpr fun e => ?_
  obtain ⟨j, b⟩ := e
  rw [List.mem_cons, ← get?_eq_some_iff, ← get?_eq_some_iff, h, Prod.mk.injEq]
  by_cases hk : Key.rank k = Key.rank j
  · have hkey := Key.rank_inj hk
    subst hkey
    simp [hnew, eq_comm]
  · have hne : j ≠ k := fun e => hk (e ▸ rfl)
    simp [hk, hne]

theorem entries_insert_perm (t : Table κ α) {k : κ} (h : t.get? k = none) (a : α) :
    (t.insert k a).entries.Perm ((k, a) :: t.entries) :=
  entries_perm_cons h fun j => t.get?_insert k j a

theorem entries_erase_perm (t : Table κ α) {k : κ} {a : α} (h : t.get? k = some a) :
    t.entries.Perm ((k, a) :: (t.erase k).entries) := by
  refine entries_perm_cons (t.get?_erase_self k) fun j => ?_
  rw [get?_erase]
  split
  case isTrue hk => rw [← Key.rank_inj hk, h]
  case isFalse => rfl

theorem entries_modify_perm (t : Table κ α) {k : κ} {a : α} (h : t.get? k = some a) (f : α → α) :
    (t.modify k f).entries.Perm ((k, f a) :: (t.erase k).entries) := by
  refine entries_perm_cons (t.get?_erase_self k) fun j => ?_
  rw [get?_modify, get?_erase]
  split
  case isTrue hk => rw [← Key.rank_inj hk, h, Option.map_some]
  case isFalse => rfl

theorem modify_of_get?_eq_none {t : Table κ α} {k : κ} (h : t.get? k = none) (f : α → α) :
    t.modify k f = t := by
  have hne (e : κ × α) (he : e ∈ t.entries) : Key.rank e.1 ≠ Key.rank k := by
    intro hr
    have hsome := (t.get?_eq_some_iff e.1 e.2).mpr he
    rw [Key.rank_inj hr, h] at hsome
    cases hsome
  obtain ⟨entries, hasc⟩ := t
  simp only [modify, mapValues, mk.injEq]
  refine (List.map_congr_left fun e he => ?_).trans (List.map_id entries)
  simp [hne e he]

/-- Only the entry of the key matters to a change of it. -/
theorem modify_congr {t : Table κ α} {k : κ} {f g : α → α}
    (h : ∀ a, t.get? k = some a → f a = g a) : t.modify k f = t.modify k g := by
  refine mapValues_congr fun j a hj => ?_
  split
  next hrank => exact h a (Key.rank_inj hrank ▸ hj)
  next => rfl

theorem modify_modify (t : Table κ α) (k : κ) (f g : α → α) :
    (t.modify k f).modify k g = t.modify k fun a => g (f a) := by
  simp only [modify, mapValues_mapValues]
  congr 1
  funext j a
  split <;> rfl

theorem modify_of_fixed {t : Table κ α} {k : κ} {f : α → α}
    (h : ∀ a, t.get? k = some a → f a = a) : t.modify k f = t := by
  rw [modify_congr h, modify]
  simp only [ite_self, mapValues_id]

theorem values_perm_cons {t u : Table κ α} {k : κ} {a : α}
    (h : t.entries.Perm ((k, a) :: u.entries)) : t.values.Perm (a :: u.values) :=
  h.map fun e : κ × α => e.2

/-- An entry takes the place of the one that had its key. -/
theorem values_insert_perm (t : Table κ α) (k : κ) (a : α) :
    (t.insert k a).values.Perm (a :: (t.erase k).values) := by
  refine values_perm_cons (entries_perm_cons (t.get?_erase_self k) fun j => ?_)
  rw [get?_insert, get?_erase]
  split <;> rfl

theorem values_erase_sublist (t : Table κ α) (k : κ) : (t.erase k).values.Sublist t.values :=
  List.filter_sublist.map _

/-- Values that only one key can have are there once or not at all. -/
theorem countP_values_of_unique (t : Table κ α) (q : α → Bool)
    (h : ∀ j k a b, t.get? j = some a → t.get? k = some b → q a = true → q b = true → j = k) :
    t.values.countP q = (t.values.any q).toNat := by
  cases hany : t.values.any q with
  | false =>
    have hnone : ∀ a ∈ t.values, ¬q a = true := by simpa [List.any_eq_false] using hany
    rw [List.countP_eq_zero.mpr hnone, Bool.toNat_false]
  | true =>
    obtain ⟨a, ha, hq⟩ := List.any_eq_true.mp hany
    obtain ⟨⟨k, a⟩, hm, rfl⟩ := List.mem_map.mp ha
    have hk := (t.get?_eq_some_iff k a).mpr hm
    have hothers : ∀ b ∈ (t.erase k).values, ¬q b = true := by
      intro b hb hqb
      obtain ⟨⟨j, b⟩, hj, rfl⟩ := List.mem_map.mp hb
      obtain ⟨hne, hold⟩ := of_get?_erase (((t.erase k).get?_eq_some_iff j b).mpr hj)
      exact hne (h j k b a hold hk hqb hq)
    rw [(values_perm_cons (t.entries_erase_perm hk)).countP_eq, List.countP_cons_of_pos hq,
      List.countP_eq_zero.mpr hothers, Bool.toNat_true]

theorem count_flatMap_values [DecidableEq β] {t u : Table κ α} {k : κ} {a : α}
    (h : t.entries.Perm ((k, a) :: u.entries)) (f : α → List β) (b : β) :
    (t.values.flatMap f).count b = (f a).count b + (u.values.flatMap f).count b := by
  rw [((values_perm_cons h).flatMap_right f).count_eq, List.flatMap_cons, List.count_append]

end Table
end PluginSlot
