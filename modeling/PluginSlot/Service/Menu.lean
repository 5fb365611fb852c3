import PluginSlot.Service.Request
/-!
Menus on the wire: a title, a state byte for each entry, and the labels and hints as two lists of
texts.
-/
namespace PluginSlot.Service
open Platform (Menu MenuEntry)
open Loader

/-- The entries for some labels and states; a label without a hint has an empty one. -/
def menuEntries : List String → List UInt8 → List String → List MenuEntry
  | label :: labels, state :: states, hints =>
    ⟨label, hints.headD "", state⟩ :: menuEntries labels states hints.tail
  | _, _, _ => []

structure MenuRequest where
  menu : Menu
  /-- The whole state buffer, of which the menu may use only the start. -/
  states : List UInt8
deriving DecidableEq, Repr

def Request.menu (r : Request) : Except Error MenuRequest := do
  let count := (r.param 0).toNat
  let title ← r.text 0
  let states ← r.buffer 1
  let labels ← r.texts 2
  let hints ← r.texts 3
  if labels.length < count ∨ states.length < count then .error .tooLarge
  else .ok ⟨⟨title, menuEntries (labels.take count) (states.take count) hints⟩, states⟩

/-- The state buffer with the states of a menu at its start. -/
def updatedStates (states : List UInt8) (entries : List MenuEntry) : List UInt8 :=
  (entries.map (·.state)).take states.length ++ states.drop entries.length

theorem length_updatedStates (states : List UInt8) (entries : List MenuEntry) :
    (updatedStates states entries).length = states.length := by
  simp only [updatedStates, List.length_append, List.length_take, List.length_map, List.length_drop]
  omega

end PluginSlot.Service
