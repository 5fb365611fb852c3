import PluginSlot.Kernel.Ident
import PluginSlot.Wire.Result
import PluginSlot.Wire.Status
/-!
The journal: the latest records of what the loader did, numbered from the first ever.
-/
namespace PluginSlot.Loader
open Kernel Wire

/-- The one plugin slot. -/
inductive SlotState where
  | empty
  | running
  /-- Loaded, but the plugin's threads are held and its memory is out. -/
  | swapped
deriving DecidableEq, Repr

namespace SlotState

def statusBits : SlotState → UInt32
  | empty => Status.slotEmpty
  | running => Status.slotRunning
  | swapped => Status.slotSwapped

def name : SlotState → String
  | empty => "None"
  | running => "Running"
  | swapped => "Swapped"

theorem stateOf_statusBits (s : SlotState) : Status.stateOf s.statusBits = s.statusBits := by
  cases s <;> decide

end SlotState

inductive HandshakeKind where
  | exit
  | swap
deriving DecidableEq, Repr

def HandshakeKind.name : HandshakeKind → String
  | exit => "Exit"
  | swap => "Swap"

inductive Event where
  | transition (source target : SlotState)
  | loaded (target : Handle) (path : String) (size : UInt64)
  | loadFailed (path : String) (code : ResultCode)
  | handshakeTimeout (kind : HandshakeKind)
  | swapOutFailed (code : ResultCode)
  | swapInFailed (code : ResultCode)
  | teardownQueued (target : Handle)
  | teardownDone (target : Handle)
  | unexpectedNotification (status : UInt32)
  | command (id : UInt16) (code : ResultCode)
deriving DecidableEq, Repr

structure Record where
  number : UInt64
  time : UInt64
  event : Event
deriving DecidableEq, Repr

structure Journal where
  /-- Oldest first. -/
  records : List Record
  nextNumber : UInt64
  capacity : Nat
deriving DecidableEq, Repr

namespace Journal

/-- A journal keeps at least one record. -/
def new (capacity : Nat) : Journal := ⟨[], 0, max capacity 1⟩

/-- The last so many elements of a list. -/
def lastOf {α : Type} (n : Nat) (l : List α) : List α := l.drop (l.length - n)

/-- Add a record, drop the oldest ones beyond the capacity, and give the record's number. -/
def record (j : Journal) (time : UInt64) (event : Event) : UInt64 × Journal :=
  (j.nextNumber, { j with
    records := lastOf j.capacity (j.records ++ [⟨j.nextNumber, time, event⟩])
    nextNumber := j.nextNumber + 1 })

/-- The latest records, newest first. -/
def recent (j : Journal) (count : Nat) : List Record := j.records.reverse.take count

def transitions (j : Journal) : List (SlotState × SlotState) :=
  j.records.filterMap fun r =>
    match r.event with
    | .transition source target => some (source, target)
    | _ => none

theorem length_lastOf {α : Type} (n : Nat) (l : List α) :
    (lastOf n l).length = min n l.length := by
  simp only [lastOf, List.length_drop]
  omega

theorem lastOf_append_lastOf {α : Type} (n : Nat) (l r : List α) :
    lastOf n (lastOf n l ++ r) = lastOf n (l ++ r) := by
  simp only [lastOf]
  by_cases h : l.length ≤ n
  · simp [Nat.sub_eq_zero_of_le h]
  · have hl : (l.drop (l.length - n) ++ r) = (l ++ r).drop (l.length - n) := by
      rw [List.drop_append_of_le_length (by omega)]
    rw [hl, List.drop_drop]
    congr 1
    simp
    omega

theorem length_record (j : Journal) (time : UInt64) (event : Event) :
    (j.record time event).2.records.length = min j.capacity (j.records.length + 1) := by
  simp [record, length_lastOf]

/-- A record just made is the newest one kept. -/
theorem recent_one_record (j : Journal) (time : UInt64) (event : Event) (h : 0 < j.capacity) :
    (j.record time event).2.recent 1 = [⟨j.nextNumber, time, event⟩] := by
  simp only [recent, record, lastOf]
  rw [List.drop_append_of_le_length (by simp; omega)]
  simp

end Journal
end PluginSlot.Loader
