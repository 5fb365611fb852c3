import PluginSlot.Platform.Act
import PluginSlot.Region.Error
import PluginSlot.Region.Settings
/-!
The memory block of the plugin. Its region is in one place at a time: nowhere, in memory (and then
mounted in the host process or not), or in a swap file. A region that is mounted is neither written
out nor given up, and one that is written out comes back through the settings it was written with.
-/
namespace PluginSlot.Region
open Kernel Platform

inductive Placement where
  | free
  /-- In memory. The saved settings are those of a swap file with the same contents. -/
  | resident (data : List UInt8) (mounted : Bool) (saved : Option SwapSettings)
  /-- Only in the swap file that the settings name. The memory was given up because the contents had
  been written there, so a region that is swapped out always has the settings to read it back. -/
  | swappedOut (length : Nat) (saved : SwapSettings)
deriving DecidableEq, Repr

structure Block where
  placement : Placement
  /-- Settings for the next write. -/
  swap : SwapSettings
  defaultFilename : String
deriving DecidableEq, Repr

namespace Block
variable {κ σ : Type}

def new (defaultFilename : String) : Block := ⟨.free, .unset defaultFilename, defaultFilename⟩

def isFree (b : Block) : Bool :=
  match b.placement with
  | .free => true
  | _ => false

def isMounted (b : Block) : Bool :=
  match b.placement with
  | .resident _ mounted _ => mounted
  | _ => false

def isSwappedOut (b : Block) : Bool :=
  match b.placement with
  | .swappedOut _ _ => true
  | _ => false

def data (b : Block) : List UInt8 :=
  match b.placement with
  | .resident data _ _ => data
  | _ => []

def length (b : Block) : Nat :=
  match b.placement with
  | .free => 0
  | .resident data _ _ => data.length
  | .swappedOut length _ => length

/-- Access to the contents, which may set one byte. What a swap file holds no longer counts as the
contents. -/
def edit (b : Block) (change : Option (Nat × UInt8)) : Option (List UInt8) × Block :=
  match b.placement with
  | .resident data mounted _ =>
    let data := match change with
      | none => data
      | some (i, byte) => data.set i byte
    (some data, { b with placement := .resident data mounted none })
  | _ => (none, b)

def allocate (b : Block) (data : List UInt8) : Except Error Unit × Block :=
  match b.placement with
  | .free => (.ok (), { b with placement := .resident data false none })
  | _ => (.error .invalidState, b)

def mount (b : Block) (target : Handle) : Act κ σ (Except Error Unit × Block) :=
  match b.placement with
  | .resident data false saved => do
    match ← Act.call (.map target data.length) with
    | .error e => pure (.error (.platform e), b)
    | .ok _ => pure (.ok (), { b with placement := .resident data true saved })
  | _ => pure (.error .invalidState, b)

def unmount (b : Block) (target : Handle) : Act κ σ (Except Error Unit × Block) :=
  match b.placement with
  | .resident data true saved => do
    match ← Act.call (.unmap target data.length) with
    | .error e => pure (.error (.platform e), b)
    | .ok _ => pure (.ok (), { b with placement := .resident data false saved })
  | _ => pure (.error .invalidState, b)

/-- Write an unmounted region to its swap file. -/
def writeOut (b : Block) : Act κ σ (Except Error Unit × Block) :=
  match b.placement with
  | .resident data false _ =>
    if !b.swap.configured then pure (.error .swapNotConfigured, b)
    else if data.length > b.swap.bound.toNat then
      pure (.error (.swapRegionTooLarge data.length b.swap.bound.toNat), b)
    else do
      match ← Act.call (.writeSwap b.swap.filename b.swap.saveAddress data) with
      | .error e => pure (.error (.platform e), b)
      | .ok _ => pure (.ok (), { b with placement := .resident data false (some b.swap) })
  | _ => pure (.error .invalidState, b)

/-- Read a swapped-out region back, through the settings it was written with. It never fails for
lack of settings: `free` swaps out only what `writeOut` has saved, and the settings are forgotten
only by `edit` and `allocate`, which need a region that is not swapped out, and by `discard`, which
leaves none. -/
def readBack (b : Block) : Act κ σ (Except Error Unit × Block) :=
  match b.placement with
  | .swappedOut length saved => do
    match ← Act.call (.readSwap saved.filename saved.loadAddress length) with
    | .error e => pure (.error (.platform e), b)
    | .ok data =>
      if data.length = length then
        pure (.ok (), { b with placement := .resident data false (some saved) })
      else pure (.error (.platform .storageFailed), b)
  | _ => pure (.error .invalidState, b)

/-- Give up the memory. A region that is written out lives on in its swap file. -/
def free (b : Block) : Except Error Unit × Block :=
  match b.placement with
  | .resident _ true _ => (.error .invalidState, b)
  | .resident data false (some saved) =>
    (.ok (), { b with placement := .swappedOut data.length saved })
  | .resident _ false none => (.ok (), { b with placement := .free })
  | .free | .swappedOut _ _ => (.ok (), b)

/-- Forget the region wherever it is, unless it is mounted. -/
def discard (b : Block) : Except Error Unit × Block :=
  if b.isMounted then (.error .invalidState, b) else (.ok (), { b with placement := .free })

/-- Back to unset settings; what is swapped out keeps those it was written with. -/
def resetSwap (b : Block) : Block := { b with swap := .unset b.defaultFilename }

def setSwap (b : Block) (settings : SwapSettings) : Block := { b with swap := settings }

def text (b : Block) : String :=
  match b.placement with
  | .free => "Free"
  | .resident _ mounted _ =>
    "Resident \x7b mounted: " ++ (if mounted then "true" else "false") ++ " \x7d"
  | .swappedOut length _ => s!"SwappedOut \x7b len: {length} \x7d"

end Block
end PluginSlot.Region
