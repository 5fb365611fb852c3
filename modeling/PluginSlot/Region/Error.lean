import PluginSlot.Platform.Error
import PluginSlot.Text.Hex
/-!
Why an operation on the plugin's memory can fail.
-/
namespace PluginSlot.Region

inductive Error where
  | swapNotConfigured
  | swapRegionTooLarge (size bound : Nat)
  /-- The region is not where the operation needs it. -/
  | invalidState
  | platform (e : Platform.Error)
deriving DecidableEq, Repr

namespace Error

def message : Error → String
  | swapNotConfigured => "swap not configured"
  | swapRegionTooLarge size bound =>
    "region of " ++ Text.hex size ++ " bytes exceeds swap bound " ++ Text.hex bound
  | invalidState => "invalid memory block state"
  | platform e => "platform error: " ++ e.name

def name : Error → String
  | swapNotConfigured => "SwapNotConfigured"
  | swapRegionTooLarge size bound =>
    s!"SwapRegionTooLarge \x7b size: {size}, bound: {bound} \x7d"
  | invalidState => "InvalidState"
  | platform e => "Store(" ++ e.name ++ ")"

end Error
end PluginSlot.Region
