import PluginSlot.Loader.State
/-!
What should hold of a loader between operations, and a checker that lists every breach.
-/
namespace PluginSlot.Loader
open Kernel Platform Wire

inductive Violation where
  | targetNotLoaded (target : Handle) (state : SlotState)
  | misplacedMemory (block : Region.Block) (state : SlotState)
  | wrongStatus (word : UInt32) (state : SlotState)

namespace Violation

def invariant : Violation → String
  | targetNotLoaded _ _ => "target_iff_loaded"
  | misplacedMemory _ _ => "memory_placement"
  | wrongStatus _ _ => "status_word"

def description : Violation → String
  | targetNotLoaded target state =>
    "target " ++ Text.hex target.val.toNat ++ " in state " ++ state.name
  | misplacedMemory block state => "block " ++ block.text ++ " in state " ++ state.name
  | wrongStatus word state =>
    "status word " ++ Text.hexPadded 8 word.toNat ++ " in state " ++ state.name

end Violation

/-- The target is null just when the slot is empty. -/
def targetFits (l : Loader) : Bool := l.target.isNull = (l.state = .empty)

/-- The memory is where the state says. -/
def memoryFits (l : Loader) : Bool :=
  match l.state with
  | .empty => l.block.isFree
  | .running => l.block.isMounted
  | .swapped => !l.block.isMounted

/-- The status word shows the state. -/
def statusFits (l : Loader) (word : UInt32) : Bool := Status.stateOf word = l.state.statusBits

def violations (l : Loader) (word : UInt32) : List Violation :=
  (if l.targetFits then [] else [.targetNotLoaded l.target l.state]) ++
  (if l.memoryFits then [] else [.misplacedMemory l.block l.state]) ++
  (if l.statusFits word then [] else [.wrongStatus word l.state])

theorem violations_eq_nil_iff (l : Loader) (word : UInt32) :
    l.violations word = [] ↔ l.targetFits ∧ l.memoryFits ∧ l.statusFits word := by
  simp only [violations, List.append_eq_nil_iff, and_assoc]
  split <;> split <;> split <;> simp_all

end PluginSlot.Loader
