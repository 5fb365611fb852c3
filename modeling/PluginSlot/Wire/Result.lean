/-!
Result words returned to callers: zero is success, and a failure has its top bit set. A word is
composed of a level, a summary, a module and a description.
-/
namespace PluginSlot.Wire

abbrev ResultCode := UInt32

def makeResult (level summary area description : UInt32) : ResultCode :=
  ((level &&& 0x1F) <<< 27) ||| ((summary &&& 0x3F) <<< 21) ||| ((area &&& 0xFF) <<< 10) |||
    (description &&& 0x3FF)

/-- A failure is a word that is negative when read as a signed number. -/
def isFailure (code : ResultCode) : Bool := code.toInt32 < 0

namespace Level
def status : UInt32 := 25
def permanent : UInt32 := 27
def usage : UInt32 := 28
def fatal : UInt32 := 31
end Level

namespace Summary
def outOfResource : UInt32 := 3
def notFound : UInt32 := 4
def invalidState : UInt32 := 5
def notSupported : UInt32 := 6
def invalidArgument : UInt32 := 7
def wrongArgument : UInt32 := 8
def canceled : UInt32 := 9
end Summary

namespace Area
def kernel : UInt32 := 1
def system : UInt32 := 6
def loader : UInt32 := 29
end Area

namespace Description
def tooLarge : UInt32 := 1001
def invalidCombination : UInt32 := 1006
def noData : UInt32 := 1007
def busy : UInt32 := 1008
def invalidEnumValue : UInt32 := 1010
def outOfMemory : UInt32 := 1011
def notImplemented : UInt32 := 1012
def invalidAddress : UInt32 := 1013
def invalidHandle : UInt32 := 1015
def notInitialized : UInt32 := 1016
def notFound : UInt32 := 1018
def timeout : UInt32 := 1022
end Description

namespace Code

def success : ResultCode := 0

/- Failures of the kernel. -/
def kernelInvalidHandle : ResultCode := 0xD8E007F7
def kernelNotImplemented : ResultCode := 0xF8C007F4
def kernelInvalidAddress : ResultCode := 0xE0E01BF5
def kernelInvalidEnumValue : ResultCode :=
  makeResult Level.permanent Summary.invalidArgument Area.kernel Description.invalidEnumValue
def kernelOutOfResource : ResultCode :=
  makeResult Level.permanent Summary.outOfResource Area.kernel Description.tooLarge

/- Failures of the loader and its platform. -/
def malformedRequest : ResultCode := 0xD9001830
def unknownCommand : ResultCode := 0xD900182F
def invalidAddress : ResultCode :=
  makeResult Level.permanent Summary.invalidArgument Area.loader Description.invalidAddress
def tooLarge : ResultCode :=
  makeResult Level.permanent Summary.invalidArgument Area.loader Description.tooLarge
def swapNotConfigured : ResultCode :=
  makeResult Level.permanent Summary.invalidState Area.loader Description.notInitialized
def swapRegionTooLarge : ResultCode :=
  makeResult Level.permanent Summary.outOfResource Area.loader Description.tooLarge
def loadFailed : ResultCode :=
  makeResult Level.permanent Summary.notFound Area.loader Description.notFound
def invalidState : ResultCode :=
  makeResult Level.permanent Summary.invalidState Area.loader Description.busy
def timeout : ResultCode :=
  makeResult Level.status Summary.canceled Area.loader Description.timeout
def notSupported : ResultCode :=
  makeResult Level.usage Summary.notSupported Area.loader Description.notImplemented
def invalidArgument : ResultCode :=
  makeResult Level.permanent Summary.invalidArgument Area.loader Description.invalidCombination
def storageFailed : ResultCode :=
  makeResult Level.permanent Summary.notFound Area.loader Description.noData
def mappingFailed : ResultCode :=
  makeResult Level.permanent Summary.outOfResource Area.loader Description.outOfMemory

end Code
end PluginSlot.Wire
