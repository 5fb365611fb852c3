import PluginSlot.Proofs.Loader.Periphery

/-!
The loader under observation. What is seen of it is which operations begin and which calls it makes,
each with the loader as it is at that moment. The full journal, from which nothing is dropped, can be
read off what is seen.
-/
namespace PluginSlot
open Platform Loader

/-- Something seen from outside: an operation begins, or the loader makes a call and is answered. -/
inductive Sighting where
  | begun (op : Service.Operation)
  | called (l : Loader) (c : Call) (a : c.Answer)

namespace Loader
variable {σ : Type} {p : Platform σ}

/-- The platform, with somebody who watches; the latest sighting comes first. -/
def watch (p : Platform σ) : Handler Loader (σ × List Sighting) := fun c m =>
  let (a, s) := p.answer c m.platform.1
  (a, { m with platform := (s, .called m.client c a :: m.platform.2) })

/-- The latest record of the journal at each reading of the clock, oldest first. The clock is read for
each record just before it is made, so no record but the last is missing. -/
def minutes : List Sighting → List Record
  | [] => []
  | .called l .now _ :: earlier => minutes earlier ++ l.journal.recent 1
  | _ :: earlier => minutes earlier

/-- The journal as it would be if no record were ever dropped. -/
def fullJournal (m : Machine Loader (σ × List Sighting)) : Journal :=
  { m.client.journal with records := minutes m.platform.2 ++ m.client.journal.recent 1 }

/-- A journal is the end of a full one, whose records have all numbers from the first on. -/
structure Journal.EndOf (j full : Journal) : Prop where
  capacity : 0 < j.capacity
  records : j.records = lastOf j.capacity full.records
  numbers : full.records.map (·.number) = (List.range full.records.length).map .ofNat
  nextNumber : j.nextNumber = .ofNat full.records.length

abbrev Filed (m : Machine Loader (σ × List Sighting)) : Prop :=
  m.client.journal.EndOf (fullJournal m)

/-- Only the clock is read for the journal. -/
theorem minutes_called (l : Loader) {c : Call} (hc : c ≠ .now) (a : c.Answer)
    (earlier : List Sighting) : minutes (.called l c a :: earlier) = minutes earlier := by
  cases c with
  | now => exact absurd rfl hc
  | _ => rfl

theorem fullJournal_call {c : Call} (hc : c ≠ .now) (m : Machine Loader (σ × List Sighting)) :
    fullJournal (watch p c m).2 = fullJournal m := by
  have hminutes := minutes_called m.client hc (p.answer c m.platform.1).1 m.platform.2
  simp only [fullJournal, watch, hminutes]

/-- The journal is all that counts of the loader. -/
theorem fullJournal_client {l : Loader} {m : Machine Loader (σ × List Sighting)}
    (hl : l.journal = m.client.journal) : fullJournal { m with client := l } = fullJournal m := by
  simp only [fullJournal, hl]

theorem filed_client {l : Loader} {m : Machine Loader (σ × List Sighting)}
    (hl : l.journal = m.client.journal) (hm : Filed m) : Filed { m with client := l } := by
  show l.journal.EndOf _
  rw [fullJournal_client hl, hl]
  exact hm

theorem filed_call {c : Call} (hc : c ≠ .now) {m : Machine Loader (σ × List Sighting)}
    (hm : Filed m) : Filed (watch p c m).2 := by
  show m.client.journal.EndOf _
  rw [fullJournal_call hc]
  exact hm

section record
variable (m : Machine Loader (σ × List Sighting)) (event : Event)

/-- A record is added to the full journal, with the next number and the time that the platform tells. -/
theorem records_fullJournal_record (hm : 0 < m.client.journal.capacity) :
    (fullJournal (record event (watch p) m).2).records = (fullJournal m).records ++
      [⟨m.client.journal.nextNumber, (p.answer .now m.platform.1).1, event⟩] := by
  have hlatest := m.client.journal.recent_one_record (p.answer .now m.platform.1).1 event hm
  show (minutes m.platform.2 ++ m.client.journal.recent 1) ++
    (m.client.journal.record (p.answer .now m.platform.1).1 event).2.recent 1 = _
  rw [hlatest]
  rfl

theorem filed_record (hm : Filed m) : Filed (record event (watch p) m).2 := by
  have hfull := records_fullJournal_record (p := p) m event hm.capacity
  constructor
  · exact hm.capacity
  · rw [hfull]
    show Journal.lastOf m.client.journal.capacity (m.client.journal.records ++ _) = _
    rw [hm.records, Journal.lastOf_append_lastOf]
    rfl
  · rw [hfull, List.map_append, hm.numbers, hm.nextNumber, List.length_append,
      List.length_singleton, List.range_succ, List.map_append]
    rfl
  · rw [hfull, List.length_append, List.length_singleton, UInt64.ofNat_add]
    exact congrArg (· + 1) hm.nextNumber

/-- Of all records, those of transitions make up the transitions of the full journal. -/
theorem transitions_fullJournal_record (hm : 0 < m.client.journal.capacity) :
    (fullJournal (record event (watch p) m).2).transitions = (fullJournal m).transitions ++
      match event with
      | .transition source target => [(source, target)]
      | _ => [] := by
  rw [Journal.transitions, records_fullJournal_record m event hm, List.filterMap_append]
  cases event <;> rfl

end record
end Loader

namespace Service
variable {σ : Type} {p : Platform σ}

/-- One operation, watched. -/
def follow (p : Platform σ) (op : Operation) (m : Machine Loader (σ × List Sighting)) :
    Outcome × Machine Loader (σ × List Sighting) :=
  op.run (watch p) { m with platform := (m.platform.1, .begun op :: m.platform.2) }

/-- A loader that starts and then carries out these operations, watched all the time. -/
def career (p : Platform σ) (config : Config) (s : σ) (ops : List Operation) :
    Machine Loader (σ × List Sighting) :=
  ops.foldl (fun m op => (follow p op m).2) (start (watch p) (machine config (s, []))).2

theorem career_concat (p : Platform σ) (config : Config) (s : σ) (ops : List Operation)
    (op : Operation) :
    career p config s (ops ++ [op]) = (follow p op (career p config s ops)).2 := by
  simp [career, List.foldl_append]

end Service
end PluginSlot
