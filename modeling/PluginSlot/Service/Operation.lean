import PluginSlot.Loader.Notification
import PluginSlot.Service.Basic
/-!
Everything that can happen to a loader, as data, so that a history is a list.
-/
namespace PluginSlot.Service
open Kernel (Handle)
open Platform (Act Handler Machine)
open Wire

inductive Operation where
  | request (r : Request)
  | load (target : Handle)
  | handleNotification
  /-- The kernel posts an event in the status word, and may notify the loader at once. -/
  | post (event : UInt32) (notify : Bool)
  | setStatus (value : UInt32)
  | shutdown
  | setEnabled (enabled : Bool)
  | toggleEnabled
  | setUiBlocked (blocked : Bool)
  | showPendingError
  | runPendingTasks
  | editMemory (change : Option (Nat × UInt8))
  /-- The event word is set from outside. -/
  | setEvent (event : Int32)
  /-- The plugin waits for an event. -/
  | pluginWait (timeout : UInt64)
  | pluginReply
deriving DecidableEq, Repr

inductive Outcome where
  | nothing
  | done
  | failed (e : Loader.Error)
  | platformFailed (e : Platform.Error)
  | response (r : Response)
  | flag (b : Bool)
  | count (n : Nat)
  | memory (contents : List UInt8)
  | event (value : Int32)
deriving DecidableEq, Repr

namespace Outcome

def ofResult : Except Loader.Error Unit → Outcome
  | .ok _ => done
  | .error e => failed e

end Outcome

variable {σ : Type}

namespace Operation

def run : Operation → Act Loader σ Outcome
  | request r => do return .response (← handle r)
  | load target => do return .ofResult (← Loader.load target)
  | handleNotification => do return .ofResult (← Loader.handleNotification)
  | post event notify => do
    let word ← Act.status
    Act.setStatus (Status.post word event)
    if notify then return .ofResult (← Loader.handleNotification)
    else return .nothing
  | setStatus value => do
    Act.setStatus value
    return .nothing
  | shutdown => do return .ofResult (← Loader.shutdown)
  | setEnabled enabled => do
    Loader.setEnabled enabled
    return .nothing
  | toggleEnabled => do return .flag (← Loader.toggleEnabled)
  | setUiBlocked blocked => do
    Loader.setUiBlocked blocked
    return .nothing
  | showPendingError => do
    Loader.showPendingError
    return .nothing
  | runPendingTasks => do return .count (← Loader.runPendingTasks)
  | editMemory change => do
    match ← Loader.editMemory change with
    | none => return .nothing
    | some contents => return .memory contents
  | setEvent event => do
    Act.setWord .event event
    return .nothing
  | pluginWait timeout => do
    let l ← Act.client
    match ← Handshake.pluginWait l.arbiter timeout with
    | .ok value => return .event value
    | .error e => return .platformFailed e
  | pluginReply => do
    let l ← Act.client
    match ← Handshake.pluginReply l.arbiter with
    | .ok _ => return .done
    | .error e => return .platformFailed e

end Operation

def runAll (h : Handler Loader σ) (m : Machine Loader σ) (ops : List Operation) : Machine Loader σ :=
  ops.foldl (fun m op => (op.run h m).2) m

end PluginSlot.Service
