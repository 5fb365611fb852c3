import PluginSlot.Loader.Load
import PluginSlot.Service.Menu
/-!
The service: a request of the right shape is carried out, any other is refused without effect. Each
request is recorded, and followed by showing the pending error, if there is one.
-/
namespace PluginSlot.Service
open Platform (Act)
open Wire Loader

variable {σ : Type}

def loadPlugin (r : Request) : Act Loader σ (Except Error Response) :=
  match r.handle 0 with
  | .error e => pure (.error e)
  | .ok target => do
    match ← load target with
    | .error e => pure (.error e)
    | .ok _ => pure (.ok (.ok .loadPlugin))

def Request.loadParameters (r : Request) : Except Error LoadParameters := do
  let path ← r.text 0
  let config ← r.words 1
  (LoadParameters.make (r.param 0) (r.param 1) path config).mapError .ofParameter

def setLoadParameters (r : Request) : Act Loader σ (Except Error Response) :=
  match r.loadParameters with
  | .error e => pure (.error e)
  | .ok p => do
    Act.modifyClient ({ · with nextLoad := some p })
    pure (.ok (.ok .setLoadParameters))

def displayMenu (r : Request) : Act Loader σ (Except Error Response) :=
  match r.menu with
  | .error e => pure (.error e)
  | .ok m => do
    match ← Act.call (.menu m.menu) with
    | .error e => pure (.error (.ofPlatform e))
    | .ok shown =>
      pure (.ok (.withDescriptor .displayMenu (.buffer (updatedStates m.states shown.entries))))

def Request.box (r : Request) : Except Error (String × String) := do
  let title ← r.text 0
  let body ← r.text 1
  .ok (title, body)

def displayMessage (r : Request) : Act Loader σ (Except Error Response) :=
  match r.box with
  | .error e => pure (.error e)
  | .ok (title, body) => do
    Act.call (.message title body)
    pure (.ok (.ok .displayMessage))

def displayError (r : Request) : Act Loader σ (Except Error Response) :=
  match r.box with
  | .error e => pure (.error e)
  | .ok (title, body) => do
    Act.call (.showError title (r.param 0) body)
    pure (.ok (.ok .displayError))

/-- The path fits a buffer only with a zero byte after it. -/
def getPluginPath (r : Request) : Act Loader σ (Except Error Response) :=
  match r.buffer 0 with
  | .error e => pure (.error e)
  | .ok bytes => do
    let l ← Act.client
    if l.pluginPath.utf8ByteSize + 1 > bytes.length then pure (.error .tooLarge)
    else
      pure (.ok (.withDescriptor .getPluginPath
        (.buffer (zeroFilled bytes.length (Text.encode l.pluginPath)))))

def Request.swapSettings (r : Request) (defaultFilename : String) :
    Except Error Region.SwapSettings := do
  let bound ← r.wordIn 0
  let filename ← r.text 1
  (Region.SwapSettings.make (r.param 0) (r.param 1) bound.toUInt64 filename
    defaultFilename).mapError .ofParameter

/-- Replace the swap settings. Whatever happens, the old ones are gone. -/
def setSwapParameters (r : Request) : Act Loader σ (Except Error Response) := do
  let l ← Act.client
  Act.modifyClient fun l => { l with block := l.block.resetSwap }
  match r.swapSettings l.config.defaultSwapFilename with
  | .error e => pure (.error e)
  | .ok settings =>
    Act.modifyClient fun l => { l with block := l.block.setSwap settings }
    Act.call .invalidateCache
    pure (.ok (.ok .setSwapParameters))

/-- Replace the parameters of the code loader. Whatever happens, the old ones are gone. -/
def setExeLoadParameters (r : Request) : Act Loader σ (Except Error Response) := do
  Act.modifyClient ({ · with exeLoad := .unset })
  match r.words 0 with
  | .error e => pure (.error e)
  | .ok context =>
    let (result, params) := ExeLoad.configure (r.param 0) context
    Act.modifyClient ({ · with exeLoad := params })
    match result with
    | .error e => pure (.error (.ofParameter e))
    | .ok _ =>
      Act.call .invalidateCache
      pure (.ok (.ok .setExeLoadParameters))

def perform (r : Request) : Command → Act Loader σ (Except Error Response)
  | .loadPlugin => loadPlugin r
  | .isEnabled => do
    let l ← Act.client
    pure (.ok (.withValue .isEnabled (if l.enabled then 1 else 0)))
  | .setEnabled => do
    setEnabled (r.param 0 ≠ 0)
    pure (.ok (.ok .setEnabled))
  | .setLoadParameters => setLoadParameters r
  | .displayMenu => displayMenu r
  | .displayMessage => displayMessage r
  | .displayError => displayError r
  | .getVersion => pure (.ok (.withValue .getVersion serviceVersion))
  | .getArbiter => do
    let l ← Act.client
    pure (.ok (.withDescriptor .getArbiter (.handle l.arbiter)))
  | .getPluginPath => getPluginPath r
  | .setUiBlock => do
    setUiBlocked (r.param 0 ≠ 0)
    pure (.ok (.ok .setUiBlock))
  | .setSwapParameters => setSwapParameters r
  | .setExeLoadParameters => setExeLoadParameters r

def performChecked (r : Request) (c : Command) : Act Loader σ Response := do
  if r.hasShape c then
    match ← perform r c with
    | .ok response => pure response
    | .error e => pure (.failure c e)
  else
    Act.debug ("[plgldr:rpc] malformed request " ++ Text.hexPadded 8 r.header.toNat ++
      s!" for command {c.id.toNat}")
    pure (.status 0 Error.malformedRequest.code)

def respond (r : Request) : Act Loader σ Response :=
  match Command.ofId? (Header.decode r.header).command with
  | some c => performChecked r c
  | none => do
    Act.debug ("[plgldr:rpc] unknown command " ++ Text.hex r.header.toNat)
    pure (.status 0 Error.notImplemented.code)

def handle (r : Request) : Act Loader σ Response := do
  let response ← respond r
  record (.command (Header.decode r.header).command response.result)
  showPendingError
  let _ ← runPendingTasks
  pure response

end PluginSlot.Service
