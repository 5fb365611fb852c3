import PluginSlot.Kernel.HandleTable
import PluginSlot.Kernel.Mask
/-!
Processes with their pages, and threads.
-/
namespace PluginSlot.Kernel

structure Permissions where
  read : Bool
  write : Bool
  execute : Bool
deriving DecidableEq, Repr

namespace Permissions

def all : Permissions := ⟨true, true, true⟩

def bits (p : Permissions) : UInt8 :=
  (if p.read then 1 else 0) ||| (if p.write then 2 else 0) ||| (if p.execute then 4 else 0)

/-- Only the low three bits count. -/
def ofBits (b : UInt8) : Permissions := ⟨b &&& 1 ≠ 0, b &&& 2 ≠ 0, b &&& 4 ≠ 0⟩

theorem ofBits_bits (p : Permissions) : ofBits p.bits = p := by
  obtain ⟨_ | _, _ | _, _ | _⟩ := p <;> decide

end Permissions

/-- Requests that a privileged caller made about a process. -/
structure ProcessFlags where
  forceRwx : Bool
  signalOnExit : Bool
  signalOnLayoutChange : Bool
deriving DecidableEq, Repr

namespace ProcessFlags

def none : ProcessFlags := ⟨false, false, false⟩

def bits (f : ProcessFlags) : UInt32 :=
  (if f.forceRwx then 1 else 0) ||| (if f.signalOnExit then 2 else 0) |||
    (if f.signalOnLayoutChange then 4 else 0)

end ProcessFlags

def pageSize : UInt32 := 0x1000

/-- The page an address lies in, by its first address. -/
def pageBase (address : UInt32) : UInt32 := address &&& ~~~(pageSize - 1)

def pageOffset (address : UInt32) : UInt32 := address &&& (pageSize - 1)

structure Page where
  physical : UInt32
  permissions : Permissions
deriving DecidableEq, Repr

structure Process where
  name : String
  titleId : UInt64
  /-- The object that stands for this process. -/
  object : ObjectId
  flags : ProcessFlags
  handles : HandleTable
  /-- Mapped pages by the address of their first byte. -/
  pages : Table UInt32 Page
  /-- Signaled when the layout changes, once somebody asked for it. -/
  memoryChangeEvent : Option ObjectId
  exiting : Bool
  /-- The kernel has dropped its own reference. -/
  reaped : Bool

/-- Thread-local words of a thread, by their number. -/
def tlsWords : Nat := 8

abbrev Tls := Vector UInt32 tlsWords

structure Thread where
  owner : ProcessId
  mask : Mask
  core : CoreId
  tls : Tls

/-- What a filter may see of a thread. -/
structure ThreadView where
  id : ThreadId
  owner : ProcessId
  core : CoreId
  tls : Tls

def Thread.view (t : Thread) (id : ThreadId) : ThreadView := ⟨id, t.owner, t.core, t.tls⟩

/-- Decides which threads a schedule operation concerns. -/
abbrev ThreadFilter := ThreadView → Bool

namespace ThreadFilter

/-- Thread-local slot in which plugin threads carry their tag. -/
def pluginSlot : Nat := 0

/-- The tag "$VT!", little-endian. -/
def pluginTag : UInt32 := 0x21545624

def slotHolds (slot : Nat) (value : UInt32) : ThreadFilter := fun t => t.tls[slot]? = some value

def plugin : ThreadFilter := slotHolds pluginSlot pluginTag

def homedOn (c : CoreId) : ThreadFilter := fun t => t.core = c

def among (ids : List ThreadId) : ThreadFilter := fun t => t.id ∈ ids

end ThreadFilter
end PluginSlot.Kernel
