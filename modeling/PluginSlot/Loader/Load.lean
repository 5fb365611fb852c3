import PluginSlot.Loader.Teardown
/-!
Loading: the plugin for the target's title is injected and its memory mounted. The target is the
loader's from the first moment, so it is closed on every path that does not end with a running
plugin.
-/
namespace PluginSlot.Loader
open Kernel Platform

variable {σ : Type}

/-- What to inject: the first path that works, with the configuration. -/
structure Plan where
  paths : List String
  config : List UInt32
  noFlash : Bool
deriving DecidableEq, Repr

def trimmedRoot (c : Config) : String :=
  String.ofList (c.pluginRoot.toList.reverse.dropWhile (· = '/')).reverse

/-- The plugin of a title, by convention. -/
def titlePath (c : Config) (titleId : UInt64) : String :=
  trimmedRoot c ++ "/" ++ Text.upperHex 16 titleId.toNat ++ "/plugin.plg"

/-- The plugin of every title that has none of its own. -/
def defaultPath (c : Config) : String := trimmedRoot c ++ "/default.plg"

/-- The parameters set for this title, if any. -/
def parametersFor (l : Loader) (titleId : UInt64) : Option LoadParameters :=
  l.nextLoad.filter (·.appliesTo titleId)

def plan (l : Loader) (titleId : UInt64) : Plan :=
  match l.parametersFor titleId with
  | some p => ⟨[p.path], p.config, p.noFlash⟩
  | none => ⟨[titlePath l.config titleId, defaultPath l.config], [], false⟩

/-- Parameters are used once, by the first load of their title. -/
def useParameters (l : Loader) (titleId : UInt64) : Loader :=
  if (l.parametersFor titleId).isSome then { l with nextLoad := none } else l

/-- Take the contents of the plugin's memory and mount it. -/
def place (target : Handle) (data : List UInt8) : Act Loader σ (Except Error Unit) := do
  match ← onBlock (·.allocate data) with
  | .error e => pure (.error (.ofRegion e))
  | .ok _ =>
    match ← onBlockAct (·.mount target) with
    | .error e => pure (.error (.ofRegion e))
    | .ok _ => pure (.ok ())

/-- Inject from the first path that works; if none does, the last failure counts. -/
def injectFirst (target : Handle) (config : List UInt32) (failure : Platform.Error) :
    List String → Act Loader σ (Except Error Unit)
  | [] => pure (.error (.ofPlatform failure))
  | path :: rest => do
    Act.modifyClient ({ · with pluginPath := path })
    match ← Act.call (.inject target path config) with
    | .error e => injectFirst target config e rest
    | .ok data => place target data

/-- Inject the plugin for the target's title, and tell whether to leave the indicator alone. -/
def inject (target : Handle) : Act Loader σ (Except Error Bool) := do
  match ← Act.call (.titleId target) with
  | .error e => pure (.error (.ofPlatform e))
  | .ok titleId =>
    let l ← Act.client
    let plan := l.plan titleId
    Act.modifyClient (·.useParameters titleId)
    match ← injectFirst target plan.config .notFound plan.paths with
    | .error e => pure (.error e)
    | .ok _ => pure (.ok plan.noFlash)

def finishLoad (target : Handle) (noFlash : Bool) : Act Loader σ Unit := do
  let l ← Act.client
  if l.config.flashIndicator && !noFlash then Act.call .flash
  transition .running
  Act.debug ("[plgldr] loaded " ++ l.pluginPath ++ " (" ++ Text.hex l.block.length ++
    " bytes) into " ++ Text.hex target.val.toNat)
  record (.loaded target l.pluginPath (.ofNat l.block.length))

def abandonLoad (target : Handle) (e : Error) : Act Loader σ Unit := do
  let _ ← onBlock (·.discard)
  let l ← Act.client
  Act.modifyClient
    ({ · with
      target := .null
      pendingError :=
        some ⟨"Plugin loader", e.code, "Cannot load plugin from\n" ++ l.pluginPath⟩ })
  let _ ← Act.call (.close target)
  Act.debug ("[plgldr] load of " ++ l.pluginPath ++ " failed: " ++
    Text.hexPadded 8 e.code.toNat)
  record (.loadFailed l.pluginPath e.code)

/-- Load the plugin into a target. A disabled loader only closes the target; an occupied slot
refuses it. -/
def load (target : Handle) : Act Loader σ (Except Error Unit) := do
  let _ ← runPendingTasks
  let l ← Act.client
  if l.state ≠ .empty then
    Act.debug "[plgldr] load refused: a plugin is already loaded"
    let _ ← Act.call (.close target)
    pure (.error .invalidState)
  else if !l.enabled then
    match ← Act.call (.close target) with
    | .error e => pure (.error (.ofPlatform e))
    | .ok _ => pure (.ok ())
  else
    Act.setWord .event Handshake.ok
    Act.modifyClient ({ · with target := target })
    match ← inject target with
    | .ok noFlash =>
      finishLoad target noFlash
      pure (.ok ())
    | .error e =>
      abandonLoad target e
      pure (.error .loadFailed)

end PluginSlot.Loader
