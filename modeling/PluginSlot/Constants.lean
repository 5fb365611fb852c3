import PluginSlot.Kernel.Control
import PluginSlot.Loader.Notification
import PluginSlot.Wire.Command
/-!
The constants that clients share with the service, under their published names.
-/
namespace PluginSlot.Constants
open Wire

abbrev Entry := String × Int

def number (name : String) (value : Nat) : Entry := (name, value)
def word (name : String) (value : UInt32) : Entry := number name value.toNat

/-- The published name of a command, without its mark. -/
def commandName : Command → String
  | .loadPlugin => "LOAD_PLUGIN"
  | .isEnabled => "IS_ENABLED"
  | .setEnabled => "SET_ENABLED"
  | .setLoadParameters => "SET_LOAD_PARAMS"
  | .displayMenu => "DISPLAY_MENU"
  | .displayMessage => "DISPLAY_MESSAGE"
  | .displayError => "DISPLAY_ERROR"
  | .getVersion => "GET_VERSION"
  | .getArbiter => "GET_ARBITER"
  | .getPluginPath => "GET_PLUGIN_PATH"
  | .setUiBlock => "SET_UI_BLOCK"
  | .setSwapParameters => "SET_SWAP_PARAMS"
  | .setExeLoadParameters => "SET_EXE_LOAD_PARAMS"

def commands : List Entry :=
  Command.all.map (fun c => number ("CMD_" ++ commandName c) c.id.toNat) ++
  Command.all.map (fun c => word ("REQ_" ++ commandName c) c.requestHeader) ++
  [number "MAX_PATH_LEN" maxPathLength, number "CONFIG_WORDS" maxConfigWords]

def results : List Entry :=
  [word "LEVEL_STATUS" Level.status,
   word "LEVEL_PERMANENT" Level.permanent,
   word "LEVEL_USAGE" Level.usage,
   word "LEVEL_FATAL" Level.fatal,
   word "SUMMARY_OUT_OF_RESOURCE" Summary.outOfResource,
   word "SUMMARY_NOT_FOUND" Summary.notFound,
   word "SUMMARY_INVALID_STATE" Summary.invalidState,
   word "SUMMARY_NOT_SUPPORTED" Summary.notSupported,
   word "SUMMARY_INVALID_ARG" Summary.invalidArgument,
   word "SUMMARY_WRONG_ARG" Summary.wrongArgument,
   word "SUMMARY_CANCELED" Summary.canceled,
   word "MODULE_KERNEL" Area.kernel,
   word "MODULE_OS" Area.system,
   word "MODULE_LOADER" Area.loader,
   word "DESC_TOO_LARGE" Description.tooLarge,
   word "DESC_INVALID_COMBINATION" Description.invalidCombination,
   word "DESC_NO_DATA" Description.noData,
   word "DESC_BUSY" Description.busy,
   word "DESC_INVALID_ENUM_VALUE" Description.invalidEnumValue,
   word "DESC_OUT_OF_MEMORY" Description.outOfMemory,
   word "DESC_NOT_IMPLEMENTED" Description.notImplemented,
   word "DESC_INVALID_ADDRESS" Description.invalidAddress,
   word "DESC_INVALID_HANDLE" Description.invalidHandle,
   word "DESC_NOT_INITIALIZED" Description.notInitialized,
   word "DESC_NOT_FOUND" Description.notFound,
   word "DESC_TIMEOUT" Description.timeout,
   word "SUCCESS" Code.success,
   word "KERNEL_INVALID_HANDLE" Code.kernelInvalidHandle,
   word "KERNEL_NOT_IMPLEMENTED" Code.kernelNotImplemented,
   word "KERNEL_INVALID_ADDRESS" Code.kernelInvalidAddress,
   word "KERNEL_INVALID_ENUM_VALUE" Code.kernelInvalidEnumValue,
   word "KERNEL_OUT_OF_RESOURCE" Code.kernelOutOfResource,
   word "MALFORMED_REQUEST" Code.malformedRequest,
   word "UNKNOWN_COMMAND" Code.unknownCommand,
   word "INVALID_ADDRESS" Code.invalidAddress,
   word "TOO_LARGE" Code.tooLarge,
   word "SWAP_NOT_CONFIGURED" Code.swapNotConfigured,
   word "SWAP_REGION_TOO_LARGE" Code.swapRegionTooLarge,
   word "LOAD_FAILED" Code.loadFailed,
   word "INVALID_STATE" Code.invalidState,
   word "TIMEOUT" Code.timeout,
   word "NOT_SUPPORTED" Code.notSupported,
   word "INVALID_ARGUMENT" Code.invalidArgument,
   word "STORAGE_FAILED" Code.storageFailed,
   word "MAPPING_FAILED" Code.mappingFailed]

def status : List Entry :=
  [word "PLG_CFG_NONE" Status.slotEmpty,
   word "PLG_CFG_RUNNING" Status.slotRunning,
   word "PLG_CFG_SWAPPED" Status.slotSwapped,
   word "PLG_CFG_EXIT_EVENT" Status.exitEvent,
   word "PLG_CFG_SWAP_EVENT" Status.swapEvent,
   word "STATE_MASK" Status.stateMask,
   word "EVENT_MASK" Status.eventMask]

def handshake : List Entry :=
  [("PLG_WAIT", Handshake.awaiting.toInt),
   ("PLG_OK", Handshake.ok.toInt),
   ("PLG_ABOUT_TO_SWAP", Handshake.aboutToSwap.toInt),
   ("PLG_ABOUT_TO_EXIT", Handshake.aboutToExit.toInt),
   number "REPLY_TIMEOUT_NS" Handshake.replyTimeout.toNat]

def kernel : List Entry :=
  [word "CURRENT_PROCESS_HANDLE" Kernel.Handle.currentProcess.val,
   word "PROCESSOP_GET_ALL_HANDLES" Kernel.ControlCode.listHandles,
   word "PROCESSOP_SET_MMU_TO_RWX" Kernel.ControlCode.forceRwx,
   word "PROCESSOP_GET_ON_MEMORY_CHANGE_EVENT" Kernel.ControlCode.memoryChangeEvent,
   word "PROCESSOP_SIGNAL_ON_EXIT" Kernel.ControlCode.signalOnExit,
   word "PROCESSOP_GET_PA_FROM_VA" Kernel.ControlCode.physicalAddress,
   word "PROCESSOP_SCHEDULE_THREADS" Kernel.ControlCode.schedule,
   word "SCHEDULE_UNLOCK" Kernel.ControlCode.unlock,
   word "SCHEDULE_LOCK" Kernel.ControlCode.lock]

def notification : List Entry := [word "LIFECYCLE_HANDLED" Loader.lifecycleHandled]

def groups : List (String × List Entry) :=
  [("command", commands), ("result", results), ("status", status), ("handshake", handshake),
    ("kernel", kernel), ("notification", notification)]

def single : List Entry :=
  [word "LOADER_VERSION" serviceVersion,
   word "PLUGIN_THREAD_TAG" Kernel.ThreadFilter.pluginTag,
   number "PLUGIN_THREAD_TLS_SLOT" Kernel.ThreadFilter.pluginSlot,
   number "MAX_SWAP_BOUND" Region.maxSwapBound.toNat,
   word "ROUTINE_ADDRESS_BIT" routineAddressBit,
   word "PSEUDO_HANDLE_BASE" Kernel.HandleTable.pseudoHandleBase,
   word "PAGE_SIZE" Kernel.pageSize,
   number "TLS_WORDS" Kernel.tlsWords]

end PluginSlot.Constants
