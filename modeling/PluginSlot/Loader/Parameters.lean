import PluginSlot.Region.Settings
/-!
Parameters set by requests: for the next load of one title, and for the plugin's own code loader.
-/
namespace PluginSlot.Loader
open Wire

structure LoadParameters where
  /-- Do not show the load by the indicator. -/
  noFlash : Bool
  /-- Low half of the title that the parameters are for. -/
  lowTitleId : UInt32
  path : String
  config : List UInt32
deriving DecidableEq, Repr

namespace LoadParameters

/-- Flag of a request: do not show the load. -/
def noFlashFlag : UInt32 := 1

def make (flags lowTitleId : UInt32) (path : String) (config : List UInt32) :
    Except ParameterError LoadParameters :=
  if path.utf8ByteSize > maxPathLength ∨ config.length > maxConfigWords then .error .tooLarge
  else .ok ⟨flags &&& noFlashFlag ≠ 0, lowTitleId, path, config⟩

def appliesTo (p : LoadParameters) (titleId : UInt64) : Bool := p.lowTitleId = titleId.toUInt32

end LoadParameters

structure ExeLoad where
  entry : UInt32
  context : List UInt32
  /-- A valid entry was set. -/
  isSet : Bool
deriving DecidableEq, Repr

namespace ExeLoad

def unset : ExeLoad := ⟨0, [], false⟩

def make (entry : UInt32) (context : List UInt32) : Except ParameterError ExeLoad :=
  if entry = 0 then .error .nullAddress
  else if context.length > maxConfigWords then .error .tooLarge
  else .ok ⟨routineAddress entry, context, true⟩

/-- New parameters replace the old ones, and refused ones unset them. -/
def configure (entry : UInt32) (context : List UInt32) : Except ParameterError Unit × ExeLoad :=
  match make entry context with
  | .error e => (.error e, unset)
  | .ok p => (.ok (), p)

end ExeLoad
end PluginSlot.Loader
