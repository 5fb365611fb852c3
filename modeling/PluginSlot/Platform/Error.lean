import PluginSlot.Kernel.Error
/-!
Why a call to the platform can fail.
-/
namespace PluginSlot.Platform
open Wire

inductive Error where
  | timeout
  | notFound
  | notSupported
  | invalidArgument
  | storageFailed
  | mappingFailed
  | kernel (e : Kernel.Error)
deriving DecidableEq, Repr

namespace Error

def all : List Error :=
  [timeout, notFound, notSupported, invalidArgument, storageFailed, mappingFailed] ++
    Kernel.Error.all.map kernel

def code : Error → ResultCode
  | timeout => Code.timeout
  | notFound => Code.loadFailed
  | notSupported => Code.notSupported
  | invalidArgument => Code.invalidArgument
  | storageFailed => Code.storageFailed
  | mappingFailed => Code.mappingFailed
  | kernel e => e.code

def name : Error → String
  | timeout => "Timeout"
  | notFound => "NotFound"
  | notSupported => "NotSupported"
  | invalidArgument => "InvalidArgument"
  | storageFailed => "StorageFailed"
  | mappingFailed => "MappingFailed"
  | kernel e => "Kernel(" ++ e.name ++ ")"

theorem isFailure_code (e : Error) : isFailure e.code = true := by
  cases e with
  | kernel e => exact e.isFailure_code
  | _ => decide

end Error
end PluginSlot.Platform
