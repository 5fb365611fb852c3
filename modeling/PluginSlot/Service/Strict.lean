import PluginSlot.Service.Basic
/-!
The service with a check wherever it takes an element or a part of a list by position. An index or an
end that is out of range leaves it without an answer.
-/
namespace PluginSlot.Service.Strict
open Platform (Act MenuEntry)
open Wire Loader

variable {σ α : Type}

/-- The bytes before an end, which must not lie behind the last. -/
def upTo (bytes : List UInt8) (stop : Nat) : Option (List UInt8) :=
  if stop ≤ bytes.length then some (bytes.take stop) else none

/-- Copy bytes to the start of a buffer, which must have room for them. -/
def copyTo (out bytes : List UInt8) : Option (List UInt8) := do
  let front ← upTo out bytes.length
  if front.length = bytes.length then pure (bytes ++ out.drop bytes.length) else none

/-- A parameter as it is read: refused, or out of range. -/
abbrev Reading (α : Type) := ExceptT Error Option α

namespace Reading

/-- Nothing is read by position. -/
def of (a : Except Error α) : Reading α := ExceptT.mk (some a)

def inRange (a : Option α) : Reading α := ExceptT.lift a

end Reading

def cString (bytes : List UInt8) : Reading String := do
  let stop := (bytes.findIdx? (· = 0)).getD bytes.length
  let kept ← .inRange (upTo bytes stop)
  .of (Request.orMalformed (Text.decode kept))

def lastNonzero? (bytes : List UInt8) : Option Nat :=
  (bytes.reverse.findIdx? (· ≠ 0)).map fun i => bytes.length - 1 - i

def stringList (bytes : List UInt8) : Reading (List String) :=
  match lastNonzero? bytes with
  | none => pure []
  | some last => do
    let kept ← .inRange (upTo bytes (last + 1))
    .of (Request.orMalformed ((splitAtZeros kept).mapM Text.decode))

/-- Four bytes at a time; what is left over does not count. -/
def chunks (bytes : List UInt8) : List (List UInt8) :=
  (List.range (bytes.length / 4)).map fun i => (bytes.drop (4 * i)).take 4

def word (chunk : List UInt8) : Option UInt32 := do
  let a ← chunk[0]?
  let b ← chunk[1]?
  let c ← chunk[2]?
  let d ← chunk[3]?
  pure (littleEndian a b c d)

def words (bytes : List UInt8) : Reading (List UInt32) := do
  if bytes.length % 4 ≠ 0 then .of (.error .malformedRequest)
  else if bytes.length / 4 > maxConfigWords then .of (.error .tooLarge)
  else
    .inRange ((chunks bytes).mapM word)

def loadParameters (r : Request) : Reading LoadParameters := do
  let path ← cString (← .of (r.buffer 0))
  let config ← words (← .of (r.buffer 1))
  let flags ← .inRange r.params[0]?
  let lowTitleId ← .inRange r.params[1]?
  .of ((LoadParameters.make flags lowTitleId path config).mapError .ofParameter)

/-- A label has the state at its own index, and the hint, if there is one. -/
def menuEntry (states : List UInt8) (hints : List String) (label : String × Nat) :
    Option MenuEntry := do
  let state ← states[label.2]?
  pure ⟨label.1, hints.getD label.2 "", state⟩

def menu (r : Request) : Reading MenuRequest := do
  let count ← .inRange r.params[0]?
  let title ← cString (← .of (r.buffer 0))
  let states ← .of (r.buffer 1)
  let labels ← stringList (← .of (r.buffer 2))
  let hints ← stringList (← .of (r.buffer 3))
  if labels.length < count.toNat ∨ states.length < count.toNat then .of (.error .tooLarge)
  else
    let entries ← .inRange ((labels.take count.toNat).zipIdx.mapM (menuEntry states hints))
    pure ⟨⟨title, entries⟩, states⟩

def box (r : Request) : Reading (String × String) := do
  let title ← cString (← .of (r.buffer 0))
  let body ← cString (← .of (r.buffer 1))
  pure (title, body)

def swapSettings (r : Request) (defaultFilename : String) : Reading Region.SwapSettings := do
  let bound ← .of (r.wordIn 0)
  let filename ← cString (← .of (r.buffer 1))
  let save ← .inRange r.params[0]?
  let load ← .inRange r.params[1]?
  .of ((Region.SwapSettings.make save load bound.toUInt64 filename defaultFilename).mapError
    .ofParameter)

/-- A computation that has no answer when something is out of range. -/
abbrev Checked (σ : Type) := OptionT (Act Loader σ)

namespace Checked

def act (x : Act Loader σ α) : Checked σ α := OptionT.lift x

def inRange (a : Option α) : Checked σ α := OptionT.mk (pure a)

def read (a : Reading α) : Checked σ (Except Error α) := inRange a.run

end Checked

def setLoadParameters (r : Request) : Checked σ (Except Error Response) := do
  match ← .read (loadParameters r) with
  | .error e => pure (.error e)
  | .ok p =>
    .act (Act.modifyClient ({ · with nextLoad := some p }))
    pure (.ok (.ok .setLoadParameters))

def displayMenu (r : Request) : Checked σ (Except Error Response) := do
  match ← .read (menu r) with
  | .error e => pure (.error e)
  | .ok m =>
    match ← .act (Act.call (.menu m.menu)) with
    | .error e => pure (.error (.ofPlatform e))
    | .ok shown =>
      pure (.ok (.withDescriptor .displayMenu (.buffer (updatedStates m.states shown.entries))))

def displayMessage (r : Request) : Checked σ (Except Error Response) := do
  match ← .read (box r) with
  | .error e => pure (.error e)
  | .ok (title, body) =>
    .act (Act.call (.message title body))
    pure (.ok (.ok .displayMessage))

def displayError (r : Request) : Checked σ (Except Error Response) := do
  match ← .read (box r) with
  | .error e => pure (.error e)
  | .ok (title, body) =>
    let code ← .inRange r.params[0]?
    .act (Act.call (.showError title code body))
    pure (.ok (.ok .displayError))

def getPluginPath (r : Request) : Checked σ (Except Error Response) := do
  match ← .read (.of (r.buffer 0)) with
  | .error e => pure (.error e)
  | .ok bytes =>
    let l ← .act Act.client
    if l.pluginPath.utf8ByteSize + 1 > bytes.length then pure (.error .tooLarge)
    else
      let out ← .inRange (copyTo (List.replicate bytes.length 0) (Text.encode l.pluginPath))
      pure (.ok (.withDescriptor .getPluginPath (.buffer out)))

def setSwapParameters (r : Request) : Checked σ (Except Error Response) := do
  let l ← .act Act.client
  .act (Act.modifyClient fun l => { l with block := l.block.resetSwap })
  match ← .read (swapSettings r l.config.defaultSwapFilename) with
  | .error e => pure (.error e)
  | .ok settings =>
    .act (Act.modifyClient fun l => { l with block := l.block.setSwap settings })
    .act (Act.call .invalidateCache)
    pure (.ok (.ok .setSwapParameters))

def setExeLoadParameters (r : Request) : Checked σ (Except Error Response) := do
  .act (Act.modifyClient ({ · with exeLoad := .unset }))
  match ← .read (do words (← .of (r.buffer 0))) with
  | .error e => pure (.error e)
  | .ok context =>
    let entry ← .inRange r.params[0]?
    let (result, params) := ExeLoad.configure entry context
    .act (Act.modifyClient ({ · with exeLoad := params }))
    match result with
    | .error e => pure (.error (.ofParameter e))
    | .ok _ =>
      .act (Act.call .invalidateCache)
      pure (.ok (.ok .setExeLoadParameters))

/-- Four commands read nothing by position. -/
def perform (r : Request) : Command → Checked σ (Except Error Response)
  | .setEnabled => do
    let flag ← .inRange r.params[0]?
    .act (setEnabled (flag ≠ 0))
    pure (.ok (.ok .setEnabled))
  | .setUiBlock => do
    let flag ← .inRange r.params[0]?
    .act (setUiBlocked (flag ≠ 0))
    pure (.ok (.ok .setUiBlock))
  | .setLoadParameters => setLoadParameters r
  | .displayMenu => displayMenu r
  | .displayMessage => displayMessage r
  | .displayError => displayError r
  | .getPluginPath => getPluginPath r
  | .setSwapParameters => setSwapParameters r
  | .setExeLoadParameters => setExeLoadParameters r
  | .loadPlugin => .act (Service.perform r .loadPlugin)
  | .isEnabled => .act (Service.perform r .isEnabled)
  | .getVersion => .act (Service.perform r .getVersion)
  | .getArbiter => .act (Service.perform r .getArbiter)

def performChecked (r : Request) (c : Command) : Checked σ Response := do
  if r.hasShape c then
    match ← perform r c with
    | .ok response => pure response
    | .error e => pure (.failure c e)
  else
    .act (Act.debug ("[plgldr:rpc] malformed request " ++ Text.hexPadded 8 r.header.toNat ++
      s!" for command {c.id.toNat}"))
    pure (.status 0 Error.malformedRequest.code)

def respond (r : Request) : Checked σ Response :=
  match Command.ofId? (Header.decode r.header).command with
  | some c => performChecked r c
  | none => do
    .act (Act.debug ("[plgldr:rpc] unknown command " ++ Text.hex r.header.toNat))
    pure (.status 0 Error.notImplemented.code)

def handle (r : Request) : Checked σ Response := do
  let response ← respond r
  .act (record (.command (Header.decode r.header).command response.result))
  .act showPendingError
  let _ ← .act runPendingTasks
  pure response

end PluginSlot.Service.Strict
