import PluginSlot.Platform.Call
/-!
A swap store in memory, whose writes or reads can be made to fail.
-/
namespace PluginSlot.Platform

structure SwapImage where
  saveAddress : UInt32
  data : List UInt8
deriving DecidableEq, Repr

structure SwapStore where
  /-- Latest image of each name. -/
  files : List (String × SwapImage)
  failWrites : Bool
  failReads : Bool
  /-- Writes and reads that succeeded. -/
  writes : Nat
  reads : Nat
deriving DecidableEq, Repr

namespace SwapStore

def empty : SwapStore := ⟨[], false, false, 0, 0⟩

def file? (s : SwapStore) (name : String) : Option SwapImage := s.files.lookup name

def write (s : SwapStore) (name : String) (address : UInt32) (data : List UInt8) :
    Except Error Unit × SwapStore :=
  if s.failWrites then (.error .storageFailed, s)
  else (.ok (), { s with
    files := (name, ⟨address, data⟩) :: s.files.filter (·.1 ≠ name)
    writes := s.writes + 1 })

/-- Read exactly as many bytes as the file has. -/
def read (s : SwapStore) (name : String) (length : Nat) :
    Except Error (List UInt8) × SwapStore :=
  if s.failReads then (.error .storageFailed, s)
  else match s.file? name with
    | none => (.error .notFound, s)
    | some image =>
      if image.data.length = length then (.ok image.data, { s with reads := s.reads + 1 })
      else (.error .storageFailed, s)

theorem file?_write (s : SwapStore) (name : String) (address : UInt32) (data : List UInt8)
    (h : s.failWrites = false) : (s.write name address data).2.file? name = some ⟨address, data⟩ := by
  simp [write, h, file?]

theorem file?_write_ne (s : SwapStore) {name other : String} (hne : name ≠ other)
    (address : UInt32) (data : List UInt8) :
    (s.write name address data).2.file? other = s.file? other := by
  unfold write
  split
  · rfl
  · have h : (other == name) = false := by simp [Ne.symm hne]
    simp only [file?, List.lookup_cons, h]
    induction s.files with
    | nil => rfl
    | cons f rest ih =>
      obtain ⟨key, image⟩ := f
      by_cases hf : key = name
      · simpa [hf, List.lookup_cons, h] using ih
      · simp only [List.filter_cons, hf, ne_eq, not_false_eq_true, decide_true, if_true,
          List.lookup_cons]
        rw [ih]

/-- Reading changes no file. -/
theorem file?_read (s : SwapStore) (name : String) (length : Nat) (other : String) :
    (s.read name length).2.file? other = s.file? other := by
  rw [read]
  split
  · rfl
  · split
    · rfl
    · split <;> rfl

theorem read_of_file (s : SwapStore) {name : String} {image : SwapImage}
    (hreads : s.failReads = false) (hfile : s.file? name = some image) :
    s.read name image.data.length = (.ok image.data, { s with reads := s.reads + 1 }) := by
  simp [read, hreads, hfile]

/-- A write fails and does nothing, or it is done. -/
theorem write_cases (s : SwapStore) (name : String) (address : UInt32) (data : List UInt8) :
    s.write name address data = (.error .storageFailed, s) ∨
      s.failWrites = false ∧ (s.write name address data).1 = .ok () := by
  cases hfail : s.failWrites with
  | true => exact .inl (by rw [write, if_pos hfail])
  | false => exact .inr ⟨rfl, by simp [write, hfail]⟩

/-- A read fails and does nothing, or gives a whole file. -/
theorem read_cases (s : SwapStore) (name : String) (length : Nat) :
    (∃ e, s.read name length = (.error e, s)) ∨
      ∃ image, s.file? name = some image ∧ image.data.length = length ∧
        s.read name length = (.ok image.data, { s with reads := s.reads + 1 }) := by
  rw [read]
  split
  · exact .inl ⟨_, rfl⟩
  · split
    case h_1 => exact .inl ⟨_, rfl⟩
    case h_2 image hfile =>
      split
      case isTrue hlength => exact .inr ⟨image, hfile, hlength, rfl⟩
      case isFalse => exact .inl ⟨_, rfl⟩

end SwapStore

def withStore {σ : Type} (p : Platform σ) : Platform (σ × SwapStore) where
  answer c := fun (s, store) =>
    match c with
    | .writeSwap name address data =>
      let (r, store) := store.write name address data
      (r, s, store)
    | .readSwap name _ length =>
      let (r, store) := store.read name length
      (r, s, store)
    | c =>
      let (a, s) := p.answer c s
      (a, s, store)

end PluginSlot.Platform
