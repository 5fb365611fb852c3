import Mathlib.Algebra.Group.Nat.Defs
import PluginSlot.Proofs.Loader.Chronicle
import PluginSlot.Proofs.Loader.Periphery

/-!
What a journal retains of all that was ever entered: the end of it, as much as fits. The numbers go on
as if nothing had been dropped.
-/
namespace PluginSlot.Loader.Journal

/-- The numbers that are answered when one entry after the other is recorded. -/
def answers (j : Journal) : List Entry → List UInt64
  | [] => []
  | e :: rest => (j.record e.time e.event).1 :: (j.record e.time e.event).2.answers rest

/-- All records that were ever made, with the numbers that were answered. -/
def history (answers : List UInt64) (entries : List Entry) : List Record :=
  List.zipWith (fun number e => ⟨number, e.time, e.event⟩) answers entries

/-- What a journal shows of the entries. -/
structure Retains (capacity : Nat) (entries : List Entry) (answers : List UInt64) (j : Journal) :
    Prop where
  numbers : answers.map UInt64.toNat = List.range entries.length
  nextNumber : j.nextNumber.toNat = entries.length
  length : j.records.length = min entries.length (max capacity 1)
  records : j.records <:+ history answers entries
  /-- Newest first. -/
  recent : ∀ count, (j.recent count).length = min count j.records.length ∧
    (j.recent count).reverse <:+ history answers entries
  transitions : j.transitions.map (fun (source, target) => Event.transition source target) =
    (j.records.map (·.event)).filter Event.isTransition

section
variable (j : Journal) (entries : List Entry)

theorem numbered_eq_history :
    numbered j.nextNumber entries = history (j.answers entries) entries := by
  induction entries generalizing j with
  | nil => rfl
  | cons e rest ih => exact congrArg _ (ih (j.record e.time e.event).2)

theorem length_history : (history (j.answers entries) entries).length = entries.length := by
  induction entries generalizing j with
  | nil => rfl
  | cons e rest ih => exact congrArg (· + 1) (ih (j.record e.time e.event).2)

theorem toNat_nextNumber_record (h : j.nextNumber.toNat + 1 < 2 ^ 64) (e : Entry) :
    (j.record e.time e.event).2.nextNumber.toNat = j.nextNumber.toNat + 1 := by
  show (j.nextNumber + 1).toNat = _
  rw [UInt64.toNat_add]
  exact Nat.mod_eq_of_lt h

theorem toNat_answers (h : j.nextNumber.toNat + entries.length < 2 ^ 64) :
    (j.answers entries).map UInt64.toNat = List.range' j.nextNumber.toNat entries.length := by
  induction entries generalizing j with
  | nil => rfl
  | cons e rest ih =>
    rw [List.length_cons] at h
    have hnext := j.toNat_nextNumber_record (by omega) e
    rw [answers, List.map_cons, ih _ (by omega), hnext]
    rfl

theorem toNat_nextNumber_recordAll (h : j.nextNumber.toNat + entries.length < 2 ^ 64) :
    (j.recordAll entries).nextNumber.toNat = j.nextNumber.toNat + entries.length := by
  induction entries generalizing j with
  | nil => rfl
  | cons e rest ih =>
    rw [List.length_cons] at h
    have hnext := j.toNat_nextNumber_record (by omega) e
    show ((j.record e.time e.event).2.recordAll rest).nextNumber.toNat = _
    rw [ih _ (by omega), hnext, List.length_cons]
    omega

theorem length_recent (count : Nat) : (j.recent count).length = min count j.records.length := by
  simp [recent]

/-- The latest records are the end of all that are kept. -/
theorem recent_suffix (count : Nat) : (j.recent count).reverse <:+ j.records := by
  have hprefix : j.recent count <+: j.records.reverse := List.take_prefix count j.records.reverse
  have hsuffix := List.reverse_suffix.mpr hprefix
  rwa [List.reverse_reverse] at hsuffix

theorem map_transitions :
    j.transitions.map (fun (source, target) => Event.transition source target) =
      (j.records.map (·.event)).filter Event.isTransition := by
  rw [transitions]
  induction j.records with
  | nil => rfl
  | cons r rest ih =>
    obtain ⟨number, time, event⟩ := r
    cases event with
    | transition source target => exact congrArg (Event.transition source target :: ·) ih
    | _ => exact ih

end

/-- A journal with any capacity keeps the end of its history, and counts all of it. -/
theorem retains_recordAll (capacity : Nat) (entries : List Entry) (h : entries.length < 2 ^ 64) :
    Retains capacity entries ((new capacity).answers entries) ((new capacity).recordAll entries) := by
  have hnew : (new capacity).nextNumber.toNat + entries.length = entries.length := Nat.zero_add _
  have hfew : (new capacity).nextNumber.toNat + entries.length < 2 ^ 64 := by rwa [hnew]
  have hrecords := (new capacity).records_recordAll (Nat.zero_le _) entries
  rw [numbered_eq_history] at hrecords
  have hsuffix : ((new capacity).recordAll entries).records <:+
      history ((new capacity).answers entries) entries := by
    rw [hrecords]
    exact List.drop_suffix _ _
  constructor
  · rw [toNat_answers _ _ hfew]
    exact List.range_eq_range'.symm
  · rw [toNat_nextNumber_recordAll _ _ hfew, hnew]
  · rw [hrecords, length_lastOf, Nat.min_comm]
    exact congrArg (min · (max capacity 1)) (length_history _ entries)
  · exact hsuffix
  · exact fun count => ⟨length_recent _ count, (recent_suffix _ count).trans hsuffix⟩
  · exact map_transitions _

/-- Of four records a journal for two keeps the last two, with the numbers that they always had. -/
theorem retains_recordAll_overflow :
    let entries : List Entry := [⟨5, .transition .empty .running⟩, ⟨6, .command 1 0⟩,
      ⟨9, .transition .running .swapped⟩, ⟨9, .handshakeTimeout .swap⟩]
    let j := (new 2).recordAll entries
    entries.length < 2 ^ 64 ∧ Retains 2 entries ((new 2).answers entries) j ∧
      j.recent 3 = [⟨3, 9, .handshakeTimeout .swap⟩, ⟨2, 9, .transition .running .swapped⟩] :=
  ⟨by decide, retains_recordAll 2 _ (by decide), by decide⟩

end PluginSlot.Loader.Journal
