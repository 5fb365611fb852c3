import PluginSlot.Loader.State
/-!
Release of a plugin: its memory is unmapped and forgotten, its host's handle closed, and the slot
becomes empty whatever fails on the way.
-/
namespace PluginSlot.Loader
open Kernel Platform

variable {σ : Type}

/-- Write a line about an operation of the memory block that failed. -/
def debugRegion (line : String) : Except Region.Error Unit → Act Loader σ Unit
  | .ok _ => pure ()
  | .error e => Act.debug (line ++ e.message)

def debugPlatform {α : Type} (line : String) : Except Platform.Error α → Act Loader σ Unit
  | .ok _ => pure ()
  | .error e => Act.debug (line ++ e.name)

/-- Release the plugin of a target, unless the target is no longer the host. -/
def teardown (target : Handle) : Act Loader σ Unit := do
  let l ← Act.client
  if l.target ≠ target then
    Act.debug ("[plgldr] stale teardown for " ++ Text.hex target.val.toNat)
  else
    if l.block.isMounted then
      debugRegion "[plgldr] unmount on exit failed: " (← onBlockAct (·.unmount target))
    debugRegion "[plgldr] free on exit failed: " (← onBlock (·.discard))
    debugPlatform "[plgldr] close target failed: " (← Act.call (.close target))
    Act.modifyClient fun l =>
      { l with
        target := .null
        exitPending := false
        exeLoad := .unset
        block := l.block.resetSwap
        uiBlocked := false }
    Act.setWord .event Handshake.ok
    transition .empty
    record (.teardownDone target)

def runTask : Task → Act Loader σ Unit
  | .teardown target => teardown target

def runTasks : List Task → Act Loader σ Unit
  | [] => pure ()
  | t :: rest => do
    runTask t
    runTasks rest

/-- Run every queued task, and tell how many there were. -/
def runPendingTasks : Act Loader σ Nat := do
  let l ← Act.client
  let (tasks, queue) := l.tasks.drain
  Act.modifyClient ({ · with tasks := queue })
  runTasks tasks
  pure tasks.length

def closeEach : List Handle → Act Loader σ (Except Error Unit)
  | [] => pure (.ok ())
  | h :: rest => do
    if h.isNull then closeEach rest
    else match ← Act.call (.close h) with
      | .error e => pure (.error (.ofPlatform e))
      | .ok _ => closeEach rest

/-- Release the plugin, if one is loaded, and the loader's own handles. -/
def shutdown : Act Loader σ (Except Error Unit) := do
  let _ ← runPendingTasks
  let l ← Act.client
  if !l.target.isNull then teardown l.target
  let l ← Act.client
  Act.modifyClient ({ · with arbiter := .null, lifecycleEvent := .null })
  match ← closeEach [l.arbiter, l.lifecycleEvent] with
  | .error e => pure (.error e)
  | .ok _ =>
    Act.debug "[plgldr] shutdown"
    pure (.ok ())

end PluginSlot.Loader
