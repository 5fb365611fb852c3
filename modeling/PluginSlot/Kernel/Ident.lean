import PluginSlot.Table
/-!
Names of the things a kernel keeps: processes, threads, cores, objects, and the handles by which
a process refers to an object.
-/
namespace PluginSlot.Kernel

structure ProcessId where
  val : Nat
deriving DecidableEq, Repr, Inhabited

structure ThreadId where
  val : Nat
deriving DecidableEq, Repr, Inhabited

structure CoreId where
  val : Nat
deriving DecidableEq, Repr, Inhabited

structure ObjectId where
  val : Nat
deriving DecidableEq, Repr, Inhabited

/-- A value that names an object within one process. -/
structure Handle where
  val : UInt32
deriving DecidableEq, Repr, Inhabited

theorem ProcessId.val_inj {a b : ProcessId} (h : a.val = b.val) : a = b := congrArg mk h
theorem ThreadId.val_inj {a b : ThreadId} (h : a.val = b.val) : a = b := congrArg mk h
theorem ObjectId.val_inj {a b : ObjectId} (h : a.val = b.val) : a = b := congrArg mk h
theorem Handle.val_inj {a b : Handle} (h : a.val = b.val) : a = b := congrArg mk h

instance : Key ProcessId := ⟨ProcessId.val, ProcessId.val_inj⟩
instance : Key ThreadId := ⟨ThreadId.val, ThreadId.val_inj⟩
instance : Key ObjectId := ⟨ObjectId.val, ObjectId.val_inj⟩
instance : Key Handle :=
  ⟨fun h => h.val.toNat, fun h => Handle.val_inj (UInt32.toNat_inj.mp h)⟩

namespace Handle

/-- Names no object. -/
def null : Handle := ⟨0⟩

/-- Always names the calling process. -/
def currentProcess : Handle := ⟨0xFFFF8001⟩

def isNull (h : Handle) : Bool := h.val = 0

theorem isNull_iff (h : Handle) : h.isNull = true ↔ h = null := by
  cases h
  simp [isNull, null]

end Handle
end PluginSlot.Kernel
