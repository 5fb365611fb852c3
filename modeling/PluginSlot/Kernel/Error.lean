import PluginSlot.Wire.Result
/-!
Why a kernel operation can fail.
-/
namespace PluginSlot.Kernel
open Wire

inductive Error where
  /-- The handle or id names nothing that is alive. -/
  | invalidHandle
  /-- The operation code is unknown. -/
  | notImplemented
  /-- The address is not mapped. -/
  | invalidAddress
  /-- The handle names an object of another class. -/
  | wrongObjectType
  /-- The handle values are used up. -/
  | outOfResource
  /-- The argument is out of range. -/
  | invalidEnumValue
deriving DecidableEq, Repr

namespace Error

def all : List Error :=
  [invalidHandle, notImplemented, invalidAddress, wrongObjectType, outOfResource, invalidEnumValue]

def code : Error → ResultCode
  | invalidHandle | wrongObjectType => Code.kernelInvalidHandle
  | notImplemented => Code.kernelNotImplemented
  | invalidAddress => Code.kernelInvalidAddress
  | outOfResource => Code.kernelOutOfResource
  | invalidEnumValue => Code.kernelInvalidEnumValue

def message : Error → String
  | invalidHandle => "invalid handle"
  | notImplemented => "operation not implemented"
  | invalidAddress => "address not mapped"
  | wrongObjectType => "handle has the wrong object class"
  | outOfResource => "kernel resource exhausted"
  | invalidEnumValue => "argument out of range"

def name : Error → String
  | invalidHandle => "InvalidHandle"
  | notImplemented => "NotImplemented"
  | invalidAddress => "InvalidAddress"
  | wrongObjectType => "WrongObjectType"
  | outOfResource => "OutOfResource"
  | invalidEnumValue => "InvalidEnumValue"

theorem isFailure_code (e : Error) : isFailure e.code = true := by cases e <;> decide

end Error
end PluginSlot.Kernel
