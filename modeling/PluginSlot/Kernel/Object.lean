import PluginSlot.Kernel.Ident
/-!
Kernel objects and the references that keep them alive.
-/
namespace PluginSlot.Kernel

inductive ObjectClass where
  | process
  | event
  | addressArbiter
deriving DecidableEq, Repr

namespace ObjectClass

/-- The number by which callers name a class. -/
def token : ObjectClass → UInt8
  | process => 0xC5
  | event => 0x95
  | addressArbiter => 0x98

def ofToken? (t : UInt8) : Option ObjectClass :=
  if t = 0xC5 then some process
  else if t = 0x95 then some event
  else if t = 0x98 then some addressArbiter
  else none

def name : ObjectClass → String
  | process => "Process"
  | event => "Event"
  | addressArbiter => "AddressArbiter"

theorem ofToken?_eq_some_iff (t : UInt8) (c : ObjectClass) : ofToken? t = some c ↔ c.token = t := by
  cases c <;> simp only [ofToken?, token] <;> grind

end ObjectClass

inductive ObjectBody where
  | process (pid : ProcessId)
  | event (signaled oneShot : Bool)
  | addressArbiter
deriving DecidableEq, Repr

/-- What an object stands for, and how often it is referred to. -/
structure Object where
  body : ObjectBody
  count : UInt32
deriving DecidableEq, Repr

namespace Object

def references (o : Object) : Nat := o.count.toNat

/-- The object with one reference more. The count wraps around. -/
def taken (o : Object) : Object := { o with count := o.count + 1 }

/-- The object with one reference less, if it has any. -/
def dropped (o : Object) : Object := { o with count := if o.count = 0 then 0 else o.count - 1 }

@[simp] theorem body_taken (o : Object) : o.taken.body = o.body := rfl

theorem references_taken_le (o : Object) : o.taken.references ≤ o.references + 1 := by
  rw [references, taken, UInt32.toNat_add]
  exact Nat.mod_le _ _

theorem references_taken {o : Object} (h : o.references + 1 < UInt32.size) :
    o.taken.references = o.references + 1 := by
  rw [references, taken, UInt32.toNat_add]
  exact Nat.mod_eq_of_lt h

@[simp] theorem references_dropped (o : Object) : o.dropped.references = o.references - 1 := by
  simp only [references, dropped]
  split
  next hzero => rw [hzero]; rfl
  next hpos =>
    have hle : (1 : UInt32) ≤ o.count := by
      rw [UInt32.le_iff_toNat_le]
      exact Nat.pos_of_ne_zero fun h => hpos (UInt32.toNat_inj.mp h)
    rw [UInt32.toNat_sub_of_le _ _ hle]
    rfl

theorem count_dropped_pos_iff {o : Object} : o.dropped.count > 0 ↔ 1 < o.references := by
  have hcount : o.dropped.count.toNat = o.references - 1 := o.references_dropped
  rw [gt_iff_lt, UInt32.lt_iff_toNat_lt, hcount]
  exact Nat.sub_pos_iff_lt

/-- A reference that was taken can be dropped again, unless the count wrapped around. -/
theorem dropped_taken {o : Object} (h : o.references + 1 < UInt32.size) : o.taken.dropped = o := by
  have hcount : o.taken.dropped.references = o.references := by
    rw [references_dropped, references_taken h, Nat.add_sub_cancel]
  obtain ⟨body, count⟩ := o
  exact congrArg (Object.mk body) (UInt32.toNat_inj.mp hcount)

end Object

def ObjectBody.classOf : ObjectBody → ObjectClass
  | .process _ => .process
  | .event _ _ => .event
  | .addressArbiter => .addressArbiter

end PluginSlot.Kernel
