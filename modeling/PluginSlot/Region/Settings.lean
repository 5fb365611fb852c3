import PluginSlot.Wire.Command
/-!
Swap settings: through which routines, and under which file name, the plugin's memory may be
written out and read back.
-/
namespace PluginSlot

/-- Why a parameter is refused. -/
inductive ParameterError where
  | nullAddress
  | tooLarge
deriving DecidableEq, Repr

/-- Routine addresses are kept with this bit, which makes them visible to the kernel. -/
def routineAddressBit : UInt32 := 0x80000000

def routineAddress (address : UInt32) : UInt32 := address ||| routineAddressBit

namespace Region

structure SwapSettings where
  saveAddress : UInt32
  loadAddress : UInt32
  /-- The largest region that the routines can handle, in bytes. -/
  bound : UInt64
  filename : String
  /-- An address pair was set. -/
  configured : Bool
deriving DecidableEq, Repr

/-- The largest bound that settings may have. -/
def maxSwapBound : UInt64 := 8 * 1024 * 1024

namespace SwapSettings

def unset (filename : String) : SwapSettings := ⟨0, 0, 0, filename, false⟩

/-- Check new settings; an empty file name stands for the default one. -/
def make (save load : UInt32) (bound : UInt64) (filename default : String) :
    Except ParameterError SwapSettings :=
  if save = 0 ∨ load = 0 then .error .nullAddress
  else if bound > maxSwapBound ∨ filename.utf8ByteSize > Wire.maxPathLength then .error .tooLarge
  else .ok
    { saveAddress := routineAddress save
      loadAddress := routineAddress load
      bound := bound
      filename := if filename.isEmpty then default else filename
      configured := true }

def isUnset (s : SwapSettings) : Bool :=
  !s.configured && s.saveAddress = 0 && s.loadAddress = 0 && s.bound = 0

end SwapSettings
end Region
end PluginSlot
