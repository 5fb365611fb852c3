import PluginSlot.Handshake.Basic
import PluginSlot.Loader.Config
import PluginSlot.Loader.Error
import PluginSlot.Loader.Journal
import PluginSlot.Loader.Parameters
import PluginSlot.Loader.Tasks
import PluginSlot.Region.Block
/-!
The state of the loader, and the steps that all its operations share: writing the journal, moving
the slot to another state, and the settings that callers may change at any time.
-/
namespace PluginSlot
open Kernel Platform Wire

/-- Shown to the user when the current request is done. -/
structure Loader.PendingError where
  title : String
  code : ResultCode
  body : String
deriving DecidableEq, Repr

structure Loader where
  config : Loader.Config
  enabled : Bool
  /-- The host process; null when no plugin is loaded. -/
  target : Handle
  state : Loader.SlotState
  /-- Parameters of the next load of their title. -/
  nextLoad : Option Loader.LoadParameters
  pluginPath : String
  block : Region.Block
  exeLoad : Loader.ExeLoad
  arbiter : Handle
  lifecycleEvent : Handle
  pendingError : Option Loader.PendingError
  /-- The host exits, and its teardown is queued. -/
  exitPending : Bool
  uiBlocked : Bool
  journal : Loader.Journal
  tasks : Loader.TaskQueue
deriving DecidableEq, Repr

namespace Loader
variable {σ : Type}

/-- A loader that has not started. -/
def new (config : Config) : Loader where
  config := config
  enabled := false
  target := .null
  state := .empty
  nextLoad := none
  pluginPath := ""
  block := .new config.defaultSwapFilename
  exeLoad := .unset
  arbiter := .null
  lifecycleEvent := .null
  pendingError := none
  exitPending := false
  uiBlocked := false
  journal := .new config.journalCapacity.toNat
  tasks := .empty

def machine (config : Config) (platform : σ) : Machine Loader σ :=
  ⟨new config, .initial, 0, platform⟩

def yesNo (b : Bool) : String := if b then "true" else "false"

def record (event : Event) : Act Loader σ Unit := do
  let now ← Act.call .now
  Act.modifyClient fun l => { l with journal := (l.journal.record now event).2 }

/-- Move the slot to a state, publish it in the status word and record it. -/
def transition (target : SlotState) : Act Loader σ Unit := do
  let l ← Act.client
  Act.modifyClient ({ · with state := target })
  Act.setStatus target.statusBits
  record (.transition l.state target)

def onBlock {α : Type} (op : Region.Block → α × Region.Block) : Act Loader σ α := do
  let l ← Act.client
  let (a, block) := op l.block
  Act.modifyClient ({ · with block := block })
  pure a

def onBlockAct {α : Type} (op : Region.Block → Act Loader σ (α × Region.Block)) :
    Act Loader σ α := do
  let l ← Act.client
  let (a, block) ← op l.block
  Act.modifyClient ({ · with block := block })
  pure a

/-- Make the handshake objects, read the system setting and clear the status word. -/
def start : Act Loader σ (Except Error Unit) := do
  match ← Act.call .createArbiter with
  | .error e => pure (.error (.ofPlatform e))
  | .ok arbiter =>
    match ← Act.call .createLifecycleEvent with
    | .error e =>
      let _ ← Act.call (.close arbiter)
      pure (.error (.ofPlatform e))
    | .ok event =>
      let enabled ← Act.call .enabledAtBoot
      Act.modifyClient
        ({ · with arbiter := arbiter, lifecycleEvent := event, enabled := enabled })
      Act.setStatus Status.slotEmpty
      Act.debug ("[plgldr] init: enabled=" ++ yesNo enabled ++
        " arbiter=" ++ Text.hex arbiter.val.toNat ++ " event=" ++ Text.hex event.val.toNat)
      pure (.ok ())

/-- Enable or disable the loader; a change is saved. -/
def setEnabled (enabled : Bool) : Act Loader σ Unit := do
  let l ← Act.client
  Act.modifyClient ({ · with enabled := enabled })
  if l.enabled ≠ enabled then Act.call .saveSettings

def toggleEnabled : Act Loader σ Bool := do
  let l ← Act.client
  Act.modifyClient ({ · with enabled := !l.enabled })
  Act.call .saveSettings
  Act.debug ("[plgldr] enabled=" ++ yesNo !l.enabled)
  pure !l.enabled

def setUiBlocked (blocked : Bool) : Act Loader σ Unit :=
  Act.modifyClient ({ · with uiBlocked := blocked })

def showPendingError : Act Loader σ Unit := do
  let l ← Act.client
  match l.pendingError with
  | none => pure ()
  | some e =>
    Act.modifyClient ({ · with pendingError := none })
    Act.call (.showError e.title e.code e.body)

/-- Access to the plugin's memory, if it is there; the contents afterwards. -/
def editMemory (change : Option (Nat × UInt8)) : Act Loader σ (Option (List UInt8)) :=
  onBlock (·.edit change)

def text (l : Loader) : String :=
  "PluginLoader \x7b state: " ++ l.state.name ++ ", target: Handle(" ++ toString l.target.val.toNat ++
    "), enabled: " ++ yesNo l.enabled ++ ", .. \x7d"

end Loader
end PluginSlot
