import PluginSlot.Kernel.Operation
import PluginSlot.Platform.SwapStore
import PluginSlot.Service.Operation
/-!
Scripts for a test bench: what is done to a loader and to the platform under it, and what is done
meanwhile, when the platform waits or publishes.
-/
namespace PluginSlot.Bench
open Platform

/-- A call whose failures can be scripted. -/
inductive FaultPoint where
  | schedule
  | close
  | title
  | arbiter
  | event
  | signal
  | wait
  | inject
  | map
  | unmap
  | menu
deriving DecidableEq, Repr

/-- Fates of coming calls: each fails or goes on. -/
abbrev Fates := List (Option Error)

/-- How a scripted plugin replies to a wait: at once, or only when the time is up. -/
structure AutoReply where
  value : Int32
  late : Bool
deriving DecidableEq, Repr

/-- Changes to the settings of a scripted console. -/
structure Patch where
  boot : Option Bool
  pluginThreads : Option Nat
  imageLength : Option Nat
  imageSeed : Option Nat
  toggles : Option Bool
  autoReply : Option (Option AutoReply)
  available : List String
  unavailable : List String
  fates : List (FaultPoint × Fates)

/-- Direct access to the swap store of the bench. -/
inductive StoreStep where
  | failWrites (on : Bool)
  | failReads (on : Bool)
  | writeFates (fates : Fates)
  | readFates (fates : Fates)
  /-- Drop so many bytes from the end of what is read. -/
  | cut (bytes : Nat)
  | put (name : String) (address : UInt32) (data : List UInt8)
  | file (name : String)
  | counts

inductive Query where
  | exeLoad
  | handles
  | config
  | journal
  | description

inductive Step where
  | operation (op : Service.Operation)
  | query (q : Query)
  | store (s : StoreStep)
  | advance (nanoseconds : UInt64)
  | kernel (s : Kernel.Step)
  /-- Change the settings, and queue scripts for coming waits and publications. -/
  | configure (p : Patch) (waiting publishing : List (List Step))

/-- When a queued script runs. -/
inductive HookPoint where
  | waiting
  | publishing
deriving DecidableEq, Repr

inductive Outcome where
  | nothing
  | service (o : Service.Outcome)
  | kernel (o : Kernel.Outcome)
  | image (i : SwapImage)
  | counts (writes reads : Nat)
  | exeLoad (p : Loader.ExeLoad)
  | handles (arbiter lifecycleEvent : Kernel.Handle)
  | config (c : Loader.Config)
  | journal (records : List Loader.Record)
  | text (t : String)

inductive Entry where
  | call (c : Call)
  | hook (point : HookPoint) (o : Outcome)

mutual

/-- Scripts within a step. -/
def Step.scripts : Step → Nat
  | .configure _ waiting publishing => scriptsInAll waiting + scriptsInAll publishing
  | .operation _ | .query _ | .store _ | .advance _ | .kernel _ => 0

def scriptsIn : List Step → Nat
  | [] => 0
  | s :: rest => s.scripts + scriptsIn rest

def scriptsInAll : List (List Step) → Nat
  | [] => 0
  | script :: rest => 1 + scriptsIn script + scriptsInAll rest

end

end PluginSlot.Bench
