import PluginSlot.Kernel.Mask

/-! Holds are independent: to set or clear one changes neither the other nor the state. -/
namespace PluginSlot.Kernel.Mask

theorem isRunnable_iff {m : Mask} :
    m.isRunnable = true ↔
      m.state = .runnable ∧ m.isPluginLocked = false ∧ m.isDebugLocked = false := by
  have hsplit : m.bits &&& (pluginLock ||| debugLock) =
      m.bits &&& pluginLock ||| m.bits &&& debugLock := by
    rw [UInt16.and_comm, or_and, UInt16.and_comm m.bits, UInt16.and_comm m.bits]
  simp [isRunnable, isPluginLocked, isDebugLocked, hsplit, UInt16.or_eq_zero_iff]

theorem set_and (m : Mask) (bits part : UInt16) :
    (m.set bits).bits &&& part = m.bits &&& part ||| bits &&& part := or_and ..

theorem clear_and (m : Mask) (bits part : UInt16) :
    (m.clear bits).bits &&& part = m.bits &&& (~~~bits &&& part) := UInt16.and_assoc ..

/-- Bits apart from those that are set keep their values. -/
theorem set_and_of_disjoint (m : Mask) {bits part : UInt16} (h : bits &&& part = 0) :
    (m.set bits).bits &&& part = m.bits &&& part := by
  rw [set_and, h, UInt16.or_zero]

theorem clear_and_of_disjoint (m : Mask) {bits part : UInt16} (h : ~~~bits &&& part = part) :
    (m.clear bits).bits &&& part = m.bits &&& part := by
  rw [clear_and, h]

section
variable (m : Mask)

@[simp] theorem isPluginLocked_set_pluginLock : (m.set pluginLock).isPluginLocked = true := by
  have h : ¬pluginLock = 0 := by decide
  simp [isPluginLocked, set_and, UInt16.or_eq_zero_iff, h]

@[simp] theorem isPluginLocked_clear_pluginLock : (m.clear pluginLock).isPluginLocked = false := by
  have h : ~~~pluginLock &&& pluginLock = 0 := by decide
  simp [isPluginLocked, clear_and, h]

@[simp] theorem isPluginLocked_set_debugLock :
    (m.set debugLock).isPluginLocked = m.isPluginLocked := by
  rw [isPluginLocked, set_and_of_disjoint m (by decide), isPluginLocked]

@[simp] theorem isPluginLocked_clear_debugLock :
    (m.clear debugLock).isPluginLocked = m.isPluginLocked := by
  rw [isPluginLocked, clear_and_of_disjoint m (by decide), isPluginLocked]

@[simp] theorem isDebugLocked_set_debugLock : (m.set debugLock).isDebugLocked = true := by
  have h : ¬debugLock = 0 := by decide
  simp [isDebugLocked, set_and, UInt16.or_eq_zero_iff, h]

@[simp] theorem isDebugLocked_clear_debugLock : (m.clear debugLock).isDebugLocked = false := by
  have h : ~~~debugLock &&& debugLock = 0 := by decide
  simp [isDebugLocked, clear_and, h]

@[simp] theorem isDebugLocked_clear_pluginLock :
    (m.clear pluginLock).isDebugLocked = m.isDebugLocked := by
  rw [isDebugLocked, clear_and_of_disjoint m (by decide), isDebugLocked]

@[simp] theorem state_clear_pluginLock : (m.clear pluginLock).state = m.state := by
  rw [state, clear_and_of_disjoint m (by decide), state]

@[simp] theorem state_clear_debugLock : (m.clear debugLock).state = m.state := by
  rw [state, clear_and_of_disjoint m (by decide), state]

@[simp] theorem isDebugLocked_set_pluginLock :
    (m.set pluginLock).isDebugLocked = m.isDebugLocked := by
  rw [isDebugLocked, set_and_of_disjoint m (by decide), isDebugLocked]

@[simp] theorem state_set_pluginLock : (m.set pluginLock).state = m.state := by
  rw [state, set_and_of_disjoint m (by decide), state]

@[simp] theorem state_set_debugLock : (m.set debugLock).state = m.state := by
  rw [state, set_and_of_disjoint m (by decide), state]

theorem clear_set_pluginLock : (m.set pluginLock).clear pluginLock = m.clear pluginLock := by
  have h : pluginLock &&& ~~~pluginLock = 0 := by decide
  rw [clear, set, clear, or_and, h, UInt16.or_zero]

end

variable {m : Mask}

theorem isRunnable_eq_false_of_isPluginLocked (h : m.isPluginLocked = true) :
    m.isRunnable = false := by
  refine Bool.eq_false_iff.mpr fun hr => ?_
  simp [(isRunnable_iff.mp hr).2.1] at h

theorem isRunnable_set_debugLock (m : Mask) : (m.set debugLock).isRunnable = false := by
  refine Bool.eq_false_iff.mpr fun hr => ?_
  simpa using (isRunnable_iff.mp hr).2.2

theorem isRunnable_clear_pluginLock (h : m.isRunnable = true) :
    (m.clear pluginLock).isRunnable = true := by
  obtain ⟨hs, -, hd⟩ := isRunnable_iff.mp h
  exact isRunnable_iff.mpr ⟨by simpa using hs, by simp, by simpa using hd⟩

theorem isRunnable_clear_debugLock (h : m.isRunnable = true) :
    (m.clear debugLock).isRunnable = true := by
  obtain ⟨hs, hp, -⟩ := isRunnable_iff.mp h
  exact isRunnable_iff.mpr ⟨by simpa using hs, by simpa using hp, by simp⟩

/-- Set or clear the hold of a debugger. -/
def withDebugLock (m : Mask) (locked : Bool) : Mask :=
  if locked then m.set debugLock else m.clear debugLock

theorem isPluginLocked_withDebugLock (m : Mask) (locked : Bool) :
    (m.withDebugLock locked).isPluginLocked = m.isPluginLocked := by
  cases locked <;> simp [withDebugLock]

theorem state_withDebugLock (m : Mask) (locked : Bool) : (m.withDebugLock locked).state = m.state := by
  cases locked <;> simp [withDebugLock]

/-- The two holds may be changed in either order. -/
theorem withDebugLock_set_pluginLock (m : Mask) (locked : Bool) :
    (m.set pluginLock).withDebugLock locked = (m.withDebugLock locked).set pluginLock := by
  cases locked with
  | false =>
    have h : pluginLock &&& ~~~debugLock = pluginLock := by decide
    show (m.set pluginLock).clear debugLock = (m.clear debugLock).set pluginLock
    rw [clear, set, or_and, h, set, clear]
  | true =>
    show (m.set pluginLock).set debugLock = (m.set debugLock).set pluginLock
    rw [set, set, set, set, UInt16.or_assoc, UInt16.or_comm pluginLock, ← UInt16.or_assoc]

theorem getElem_pluginLock {i : Nat} (hi : i < 16) : pluginLock.toBitVec[i] = decide (i = 5) := by
  have hpow : pluginLock.toBitVec = BitVec.twoPow 16 5 := rfl
  simp [hpow, BitVec.getElem_twoPow]

/-- The loader's hold is a single bit. -/
theorem isPluginLocked_eq (m : Mask) : m.isPluginLocked = m.bits.toBitVec[5] := by
  have h : m.bits &&& pluginLock = 0 ↔ m.bits.toBitVec[5] = false := by
    rw [← UInt16.toBitVec_inj]
    constructor
    · intro h
      have hbit := congrArg (fun v : BitVec 16 => v[5]) h
      simpa [getElem_pluginLock] using hbit
    · intro h
      ext i hi
      by_cases h5 : i = 5
      · subst h5
        simp [h]
      · simp [getElem_pluginLock, h5]
  simp [isPluginLocked, h]

/-- To set the loader's hold where it is set changes nothing. -/
theorem set_pluginLock_of_isPluginLocked (h : m.isPluginLocked = true) : m.set pluginLock = m := by
  rw [isPluginLocked_eq] at h
  have hbits : m.bits ||| pluginLock = m.bits := by
    apply UInt16.toBitVec_inj.mp
    ext i hi
    by_cases h5 : i = 5
    · subst h5
      simp [h]
    · simp [getElem_pluginLock, h5]
  rw [set, hbits]

theorem clear_pluginLock_of_free (h : m.isPluginLocked = false) : m.clear pluginLock = m := by
  rw [isPluginLocked_eq] at h
  have hbits : m.bits &&& ~~~pluginLock = m.bits := by
    apply UInt16.toBitVec_inj.mp
    ext i hi
    by_cases h5 : i = 5
    · subst h5
      simp [h]
    · simp [getElem_pluginLock, h5]
  rw [clear, hbits]

theorem isRunnable_ofState_paused : (ofState .paused).isRunnable = false := rfl

end PluginSlot.Kernel.Mask
