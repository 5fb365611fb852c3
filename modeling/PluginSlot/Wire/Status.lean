/-!
The status word shared with the kernel: its low half is the state of the plugin slot, written by
the loader, and its high half a notification, posted by the kernel and consumed by the loader.
-/
namespace PluginSlot.Wire.Status

def slotEmpty : UInt32 := 0
def slotRunning : UInt32 := 1
def slotSwapped : UInt32 := 2

def exitEvent : UInt32 := 0x10000
def swapEvent : UInt32 := 0x20000

def stateMask : UInt32 := 0xFFFF
def eventMask : UInt32 := ~~~stateMask

def stateOf (word : UInt32) : UInt32 := word &&& stateMask
def eventOf (word : UInt32) : UInt32 := word &&& eventMask

/-- Replace the event half. -/
def post (word event : UInt32) : UInt32 := stateOf word ||| event

theorem stateOf_or_eventOf (word : UInt32) : stateOf word ||| eventOf word = word := by
  apply UInt32.toBitVec_inj.mp
  simp only [stateOf, eventOf, UInt32.toBitVec_or, UInt32.toBitVec_and]
  rw [← BitVec.and_or_distrib_left]
  have h : stateMask.toBitVec ||| eventMask.toBitVec = BitVec.allOnes 32 := by decide
  rw [h, BitVec.and_allOnes]

theorem eventOf_stateOf (word : UInt32) : eventOf (stateOf word) = 0 := by
  rw [eventOf, stateOf, UInt32.and_assoc]
  have h : stateMask &&& eventMask = 0 := by decide
  simp [h]

theorem stateOf_stateOf (word : UInt32) : stateOf (stateOf word) = stateOf word := by
  simp [stateOf, UInt32.and_assoc]

end PluginSlot.Wire.Status
