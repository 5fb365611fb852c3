import PluginSlot.Loader.Teardown
/-!
Lifecycle notifications of the kernel. A host that exits has its plugin torn down once the
notification is answered; under memory pressure the plugin is swapped out, and back in by the next
such notification. The plugin is asked first, but its silence stops nothing.
-/
namespace PluginSlot.Loader
open Kernel Platform Wire

variable {σ : Type}

/-- Published when a notification has been handled. -/
def lifecycleHandled : UInt32 := 0x1002

def unexpected (word : UInt32) : Act Loader σ (Except Error Unit) := do
  Act.debug ("[plgldr] unexpected notification, status word " ++ Text.hexPadded 8 word.toNat)
  record (.unexpectedNotification word)
  pure (.error .unexpectedNotification)

def askPlugin (arbiter : Handle) (event : Int32) : Act Loader σ (Except Platform.Error Handshake.Ack) := do
  match ← Handshake.notify arbiter event with
  | .error e => pure (.error e)
  | .ok _ =>
    let l ← Act.client
    Handshake.waitForReply arbiter l.config.timeoutNanos

/-- Ask the plugin; a refusal to answer is recorded, and nothing else. -/
def shakeHands (arbiter : Handle) (event : Int32) (kind : HandshakeKind) : Act Loader σ Unit := do
  match ← askPlugin arbiter event with
  | .ok .acknowledged => pure ()
  | .ok .timedOut =>
    Act.debug ("[plgldr] plugin did not acknowledge " ++ kind.name ++ ", proceeding")
    record (.handshakeTimeout kind)
  | .error e =>
    Act.debug ("[plgldr] handshake failed: " ++ e.name ++ ", proceeding")
    record (.handshakeTimeout kind)

/-- The host exits. A swapped-out plugin has its threads held and cannot answer. -/
def onExit (word : UInt32) : Act Loader σ (Except Error Unit) := do
  let l ← Act.client
  if l.state = .empty then unexpected word
  else if l.exitPending then pure (.ok ())
  else
    if l.state = .running then shakeHands l.arbiter Handshake.aboutToExit .exit
    Act.modifyClient fun now =>
      { now with
        exitPending := true
        tasks := (now.tasks.push (.teardown l.target)).2 }
    record (.teardownQueued l.target)
    pure (.ok ())

/-- Hold the plugin's threads, unmount its memory and write it out. A region that cannot be written
stays in memory, unmounted. -/
def swapOut : Act Loader σ Unit := do
  let l ← Act.client
  match ← Act.call (.schedule l.target .lock) with
  | .ok report =>
    Act.debug (s!"[plgldr:swap] locked {report.locked.length} threads, interrupted " ++
      s!"{report.interrupted.length} cores")
  | .error e => Act.debug ("[plgldr:swap] lock failed: " ++ e.name)
  debugRegion "[plgldr:swap] unmount failed: " (← onBlockAct (·.unmount l.target))
  match ← onBlockAct (·.writeOut) with
  | .ok _ =>
    debugRegion "[plgldr:swap] free failed: " (← onBlock (·.free))
    transition .swapped
  | .error e =>
    Act.debug ("[plgldr:swap] swap-out failed: " ++ e.message ++ ", keeping region")
    transition .swapped
    record (.swapOutFailed (Error.ofRegion e).code)

/-- Bring the region back, if it is out, and mount it. -/
def restore (target : Handle) : Act Loader σ (Except Region.Error Unit) := do
  let l ← Act.client
  let restored ← if l.block.isSwappedOut then onBlockAct (·.readBack) else pure (.ok ())
  match restored with
  | .error e => pure (.error e)
  | .ok _ => onBlockAct (·.mount target)

/-- Restore the region and release the plugin's threads. If the region cannot be put back, the
plugin stays swapped out, to be tried again. -/
def swapIn : Act Loader σ Bool := do
  let l ← Act.client
  match ← restore l.target with
  | .error e =>
    Act.debug ("[plgldr:swap] swap-in failed: " ++ e.message ++ ", plugin stays swapped")
    record (.swapInFailed (Error.ofRegion e).code)
    pure false
  | .ok _ =>
    match ← Act.call (.schedule l.target .unlock) with
    | .ok report => Act.debug s!"[plgldr:swap] unlocked {report.unlocked.length} threads"
    | .error e => Act.debug ("[plgldr:swap] unlock failed: " ++ e.name)
    transition .running
    pure true

/-- Memory is short, or no longer so. -/
def onSwap (word : UInt32) : Act Loader σ (Except Error Unit) := do
  let l ← Act.client
  if l.exitPending then
    Act.debug "[plgldr:swap] host is exiting, swap ignored"
    unexpected word
  else match l.state with
    | .empty => unexpected word
    | .running =>
      shakeHands l.arbiter Handshake.aboutToSwap .swap
      swapOut
      pure (.ok ())
    | .swapped =>
      if ← swapIn then
        debugPlatform "[plgldr] resume signal failed: "
          (← Handshake.notify l.arbiter Handshake.ok)
      pure (.ok ())

/-- Consume the event in the status word, answer it, and then run what it put off. -/
def handleNotification : Act Loader σ (Except Error Unit) := do
  let word ← Act.status
  Act.setStatus (Status.stateOf word)
  let event := Status.eventOf word
  let result ←
    if event = 0 then pure (.ok ())
    else if event = Status.exitEvent then onExit word
    else if event = Status.swapEvent then onSwap word
    else unexpected word
  Act.call (.publish lifecycleHandled)
  let _ ← runPendingTasks
  pure result

end PluginSlot.Loader
