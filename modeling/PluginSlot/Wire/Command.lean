import PluginSlot.Wire.Header
/-!
The commands of the loader service, and for each the one header its requests carry.
-/
namespace PluginSlot.Wire

inductive Command where
  | loadPlugin
  | isEnabled
  | setEnabled
  | setLoadParameters
  | displayMenu
  | displayMessage
  | displayError
  | getVersion
  | getArbiter
  | getPluginPath
  | setUiBlock
  | setSwapParameters
  | setExeLoadParameters
deriving DecidableEq, Repr

namespace Command

def all : List Command :=
  [loadPlugin, isEnabled, setEnabled, setLoadParameters, displayMenu, displayMessage, displayError,
    getVersion, getArbiter, getPluginPath, setUiBlock, setSwapParameters, setExeLoadParameters]

def id : Command → UInt16
  | loadPlugin => 1
  | isEnabled => 2
  | setEnabled => 3
  | setLoadParameters => 4
  | displayMenu => 5
  | displayMessage => 6
  | displayError => 7
  | getVersion => 8
  | getArbiter => 9
  | getPluginPath => 10
  | setUiBlock => 11
  | setSwapParameters => 12
  | setExeLoadParameters => 13

def ofId? (i : UInt16) : Option Command := all.find? fun c => c.id = i

/-- Plain words of a request. -/
def normalWords : Command → UInt8
  | setLoadParameters | setSwapParameters => 2
  | setEnabled | displayMenu | displayError | setUiBlock | setExeLoadParameters => 1
  | loadPlugin | isEnabled | displayMessage | getVersion | getArbiter | getPluginPath => 0

/-- Translate words of a request, two for each buffer or handle. -/
def translateWords : Command → UInt8
  | displayMenu => 8
  | setLoadParameters | displayMessage | displayError | setSwapParameters => 4
  | loadPlugin | getPluginPath | setExeLoadParameters => 2
  | isEnabled | setEnabled | getVersion | getArbiter | setUiBlock => 0

def requestHeader (c : Command) : UInt32 := makeHeader c.id c.normalWords c.translateWords

theorem ofId?_id (c : Command) : ofId? c.id = some c := by cases c <;> decide

theorem ofId?_eq_some {i : UInt16} {c : Command} (h : ofId? i = some c) : c.id = i := by
  simpa using List.find?_some h

end Command

/-- Longest plugin path or swap file name, in bytes. -/
def maxPathLength : Nat := 255

/-- Most configuration words that load or code-load parameters may carry. -/
def maxConfigWords : Nat := 32

end PluginSlot.Wire
