import PluginSlot.Region.Error
import PluginSlot.Region.Settings
/-!
Why the loader refuses a request or cannot carry it out.
-/
namespace PluginSlot.Loader
open Wire

inductive Error where
  | invalidHandle
  | malformedRequest
  | notImplemented
  | swapNotConfigured
  | swapRegionTooLarge
  /-- The plugin could not be injected into the target. -/
  | loadFailed
  | invalidAddress
  | tooLarge
  | invalidState
  /-- The notification makes no sense in the current state. -/
  | unexpectedNotification
  | platform (e : Platform.Error)
deriving DecidableEq, Repr

namespace Error

def all : List Error :=
  [invalidHandle, malformedRequest, notImplemented, swapNotConfigured, swapRegionTooLarge,
    loadFailed, invalidAddress, tooLarge, invalidState, unexpectedNotification] ++
    Platform.Error.all.map platform

def code : Error → ResultCode
  | invalidHandle => Code.kernelInvalidHandle
  | malformedRequest => Code.malformedRequest
  | notImplemented => Code.unknownCommand
  | swapNotConfigured => Code.swapNotConfigured
  | swapRegionTooLarge => Code.swapRegionTooLarge
  | loadFailed => Code.loadFailed
  | invalidAddress => Code.invalidAddress
  | tooLarge => Code.tooLarge
  | invalidState | unexpectedNotification => Code.invalidState
  | platform e => e.code

def name : Error → String
  | invalidHandle => "InvalidHandle"
  | malformedRequest => "MalformedRequest"
  | notImplemented => "NotImplemented"
  | swapNotConfigured => "SwapNotConfigured"
  | swapRegionTooLarge => "SwapRegionTooLarge"
  | loadFailed => "LoadFailed"
  | invalidAddress => "InvalidAddress"
  | tooLarge => "TooLarge"
  | invalidState => "InvalidState"
  | unexpectedNotification => "UnexpectedNotification"
  | platform e => "Hal(" ++ e.name ++ ")"

/-- A handle that the kernel does not know is the caller's fault. -/
def ofPlatform : Platform.Error → Error
  | .kernel .invalidHandle => invalidHandle
  | e => platform e

def ofRegion : Region.Error → Error
  | .swapNotConfigured => swapNotConfigured
  | .swapRegionTooLarge _ _ => swapRegionTooLarge
  | .invalidState => invalidState
  | .platform e => ofPlatform e

def ofParameter : ParameterError → Error
  | .nullAddress => invalidAddress
  | .tooLarge => tooLarge

theorem isFailure_code (e : Error) : isFailure e.code = true := by
  cases e with
  | platform e => exact e.isFailure_code
  | _ => decide

theorem code_ofPlatform (e : Platform.Error) : (ofPlatform e).code = e.code := by
  unfold ofPlatform
  split <;> rfl

end Error
end PluginSlot.Loader
