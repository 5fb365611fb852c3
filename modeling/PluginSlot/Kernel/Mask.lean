/-!
The scheduling mask of a thread: its state in the low nibble and independent holds above it. A
thread may run only in state runnable with no hold set.
-/
namespace PluginSlot.Kernel

inductive ThreadState where
  | paused
  | runnable
  | terminating
deriving DecidableEq, Repr

def ThreadState.nibble : ThreadState → UInt16
  | paused => 0
  | runnable => 1
  | terminating => 2

def ThreadState.name : ThreadState → String
  | paused => "Paused"
  | runnable => "Runnable"
  | terminating => "Terminating"

structure Mask where
  bits : UInt16
deriving DecidableEq, Repr

namespace Mask

def stateBits : UInt16 := 0x000F

/-- Hold placed by the loader. -/
def pluginLock : UInt16 := 0x0020

/-- Hold placed by a debugger. -/
def debugLock : UInt16 := 0x0040

def ofState (s : ThreadState) : Mask := ⟨s.nibble⟩

def state (m : Mask) : ThreadState :=
  if m.bits &&& stateBits = 1 then .runnable
  else if m.bits &&& stateBits = 2 then .terminating
  else .paused

/-- Replace the state and keep every hold. -/
def withState (m : Mask) (s : ThreadState) : Mask := ⟨(m.bits &&& ~~~stateBits) ||| s.nibble⟩

def set (m : Mask) (bits : UInt16) : Mask := ⟨m.bits ||| bits⟩
def clear (m : Mask) (bits : UInt16) : Mask := ⟨m.bits &&& ~~~bits⟩

def isTerminating (m : Mask) : Bool := m.state = .terminating
def isPluginLocked (m : Mask) : Bool := m.bits &&& pluginLock ≠ 0
def isDebugLocked (m : Mask) : Bool := m.bits &&& debugLock ≠ 0
def isRunnable (m : Mask) : Bool :=
  m.state = .runnable ∧ m.bits &&& (pluginLock ||| debugLock) = 0

theorem or_and (a b c : UInt16) : (a ||| b) &&& c = (a &&& c) ||| (b &&& c) := by
  apply UInt16.toBitVec_inj.mp
  ext i hi
  simp [Bool.and_or_distrib_right]

theorem nibble_and_stateBits (s : ThreadState) : s.nibble &&& stateBits = s.nibble := by
  cases s <;> rfl

theorem withState_low (m : Mask) (s : ThreadState) :
    (m.withState s).bits &&& stateBits = s.nibble := by
  have h : (~~~stateBits) &&& stateBits = 0 := by decide
  simp only [withState]
  rw [or_and, UInt16.and_assoc, h, UInt16.and_zero, UInt16.zero_or, nibble_and_stateBits]

theorem withState_locks (m : Mask) (s : ThreadState) (locks : UInt16)
    (h : s.nibble &&& locks = 0) (hl : ~~~stateBits &&& locks = locks) :
    (m.withState s).bits &&& locks = m.bits &&& locks := by
  simp only [withState]
  rw [or_and, UInt16.and_assoc, hl, h, UInt16.or_zero]

theorem state_withState (m : Mask) (s : ThreadState) : (m.withState s).state = s := by
  rw [state, withState_low]
  cases s <;> rfl

theorem state_ofState (s : ThreadState) : (ofState s).state = s := by
  cases s <;> rfl

theorem isPluginLocked_withState (m : Mask) (s : ThreadState) :
    (m.withState s).isPluginLocked = m.isPluginLocked := by
  have h : s.nibble &&& pluginLock = 0 := by cases s <;> rfl
  rw [isPluginLocked, withState_locks m s pluginLock h (by decide), isPluginLocked]

theorem isDebugLocked_withState (m : Mask) (s : ThreadState) :
    (m.withState s).isDebugLocked = m.isDebugLocked := by
  have h : s.nibble &&& debugLock = 0 := by cases s <;> rfl
  rw [isDebugLocked, withState_locks m s debugLock h (by decide), isDebugLocked]

end Mask
end PluginSlot.Kernel
