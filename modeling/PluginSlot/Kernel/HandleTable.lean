import PluginSlot.Kernel.Ident
/-!
The handles of one process. Values are given out in ascending order and never twice, and stay
below those reserved for pseudo-handles.
-/
namespace PluginSlot.Kernel

structure HandleTable where
  slots : Table Handle ObjectId
  next : UInt32

namespace HandleTable

/-- Handles from here on are reserved. -/
def pseudoHandleBase : UInt32 := 0xFFFF8000

def firstHandle : UInt32 := 0x100

def empty : HandleTable := ⟨.empty, firstHandle⟩

instance : Inhabited HandleTable := ⟨empty⟩

/-- Give the object a new handle, unless the values are used up. -/
def insert (t : HandleTable) (o : ObjectId) : Option (Handle × HandleTable) :=
  if t.next ≥ pseudoHandleBase then none
  else some (⟨t.next⟩, ⟨t.slots.insert ⟨t.next⟩ o, t.next + 1⟩)

/-- The object a handle names; the null handle names none. -/
def get? (t : HandleTable) (h : Handle) : Option ObjectId :=
  if h.isNull then none else t.slots.get? h

def remove (t : HandleTable) (h : Handle) : Option ObjectId × HandleTable :=
  (t.slots.get? h, { t with slots := t.slots.erase h })

/-- Take every object out, in handle order. -/
def drain (t : HandleTable) : List ObjectId × HandleTable :=
  (t.slots.values, { t with slots := .empty })

def entries (t : HandleTable) : List (Handle × ObjectId) := t.slots.entries

def referencesTo (t : HandleTable) (o : ObjectId) : Nat := t.slots.values.countP (· = o)

def size (t : HandleTable) : Nat := t.slots.size
def isEmpty (t : HandleTable) : Bool := t.slots.isEmpty

theorem insert_eq_some_iff {t u : HandleTable} {o : ObjectId} {h : Handle} :
    t.insert o = some (h, u) ↔
      t.next < pseudoHandleBase ∧ h = ⟨t.next⟩ ∧ u = ⟨t.slots.insert ⟨t.next⟩ o, t.next + 1⟩ := by
  rw [insert]
  split
  · rename_i hge
    constructor
    · intro hn
      cases hn
    · rintro ⟨hlt, -⟩
      exact absurd hge (UInt32.not_le.mpr hlt)
  · rename_i hlt
    simp only [Option.some.injEq, Prod.mk.injEq, UInt32.not_le.mp hlt, true_and, eq_comm]

/-- The counter moves on by one and does not wrap. -/
theorem toNat_next_insert {t u : HandleTable} {o : ObjectId} {h : Handle}
    (hi : t.insert o = some (h, u)) : u.next.toNat = t.next.toNat + 1 := by
  obtain ⟨hlt, -, rfl⟩ := insert_eq_some_iff.mp hi
  have := UInt32.lt_iff_toNat_lt.mp hlt
  have hb : pseudoHandleBase.toNat = 0xFFFF8000 := rfl
  simp only [UInt32.toNat_add]
  have h1 : (1 : UInt32).toNat = 1 := rfl
  omega

theorem slots_insert {t u : HandleTable} {o : ObjectId} {h : Handle}
    (hi : t.insert o = some (h, u)) (j : Handle) :
    u.slots.get? j = if h = j then some o else t.slots.get? j := by
  obtain ⟨-, rfl, rfl⟩ := insert_eq_some_iff.mp hi
  by_cases hj : (⟨t.next⟩ : Handle) = j
  · simp [← hj]
  · rw [Table.get?_insert_ne _ hj, if_neg hj]

theorem slots_remove (t : HandleTable) (h j : Handle) :
    (t.remove h).2.slots.get? j = if h = j then none else t.slots.get? j := by
  by_cases hj : h = j
  · simp [remove, ← hj]
  · rw [remove, if_neg hj]
    exact Table.get?_erase_ne _ hj

@[simp] theorem slots_drain (t : HandleTable) (j : Handle) :
    t.drain.2.slots.get? j = none := rfl

end HandleTable
end PluginSlot.Kernel
