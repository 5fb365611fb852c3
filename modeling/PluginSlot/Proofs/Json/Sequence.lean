import PluginSlot.Proofs.Json.Reading
/-!
Texts with commas between them, and lists of what is read back, which are read back themselves.
-/
namespace PluginSlot.Json
open Text (bytes bytes_append bytes_cons)

variable {α : Type}

/-- What stands before a text among others. -/
def lead (first : Bool) : List Char := if first then [] else [',']

/-- Texts after some others, or none. -/
def separated : Bool → List (List Char) → List Char
  | _, [] => []
  | first, t :: ts => lead first ++ (t ++ separated false ts)

theorem commaSeparated_eq (ts : List (List Char)) : commaSeparated ts = separated true ts := by
  induction ts with
  | nil => rfl
  | cons t ts ih =>
    cases ts with
    | nil => simp [commaSeparated, separated, lead]
    | cons u ts =>
      change t ++ ',' :: commaSeparated (u :: ts) = _
      rw [ih]
      rfl

theorem bytes_separated_cons (first : Bool) (t : List Char) (ts : List (List Char)) (s : Bytes) :
    bytes (separated first (t :: ts)) ++ s =
      bytes (lead first) ++ (bytes t ++ (bytes (separated false ts) ++ s)) := by
  simp only [separated, bytes_append, List.append_assoc]

theorem length_le_separated (ts : List (List Char)) :
    ts.length ≤ (bytes (separated false ts)).length := by
  induction ts with
  | nil => simp
  | cons t ts ih =>
    have hlead : (bytes (lead false)).length = 1 := rfl
    simp [separated, hlead]
    omega

/-- There are turns enough for every text and the mark at the end. -/
theorem exists_turns (ts : List (List Char)) {s : Bytes} (hs : s ≠ []) :
    ∃ fuel, (bytes (commaSeparated ts) ++ s).length + 1 = ts.length + fuel + 1 := by
  have hpos : 0 < s.length := List.length_pos_iff.mpr hs
  refine Nat.exists_eq_add_of_lt ?_
  rw [commaSeparated_eq, List.length_append]
  cases ts with
  | nil => simp
  | cons t ts =>
    have := length_le_separated ts
    simp [separated]
    omega

theorem Ends.separated {rest : Bytes} (h : Ends rest) (ts : List (List Char)) :
    Ends (bytes (separated false ts) ++ rest) := by
  cases ts with
  | nil => exact h
  | cons t ts =>
    rw [bytes_separated_cons]
    exact ends_cons rfl _

/-- The next element, which is the first one or comes after a comma. -/
theorem Reads.nextElement {read : Reader α} {text : List Char} {a : α} (h : Reads read text a)
    (first : Bool) (s : Bytes) :
    nextElement first (bytes (lead first) ++ (bytes text ++ s)) = .ok (.element (bytes text ++ s)) := by
  obtain ⟨b, t, htext, hb⟩ := h.begins
  have hclose : b ≠ Mark.closeArray := by
    rintro rfl
    cases hb
  have hskip : skipBlank (b :: (t ++ s)) = b :: (t ++ s) := skipBlank_cons (not_blank_of_begins hb) _
  have hcomma : Mark.comma ≠ Mark.closeArray := by decide
  rw [htext, List.cons_append]
  cases first with
  | true =>
    change Json.nextElement true (b :: (t ++ s)) = _
    simp only [Json.nextElement, hskip, if_neg hclose, if_true]
  | false =>
    change Json.nextElement false (Mark.comma :: b :: (t ++ s)) = _
    simp only [Json.nextElement, skipBlank_cons (b := Mark.comma) rfl, hskip, if_neg hcomma,
      if_neg hclose, if_true, Bool.false_eq_true, if_false]

variable {c : Codec α}

/-- The elements of a list that are left, and its end. -/
theorem readElements_separated {l : List α} (h : ∀ a ∈ l, c.Recovers a) (fuel : Nat) (first : Bool)
    (rest : Bytes) :
    readElements c.read (l.length + fuel + 1) first
        (bytes (separated first (l.map c.write)) ++ Mark.closeArray :: rest) = .ok (l, rest) := by
  induction l generalizing first with
  | nil => rfl
  | cons a l ih =>
    have ha : Reads c.read (c.write a) a := h a List.mem_cons_self
    have hl := ih (fun a ha => h a (List.mem_cons_of_mem _ ha)) false
    have hends : Ends (Mark.closeArray :: rest) := ends_cons rfl rest
    have hfuel : (a :: l).length + fuel + 1 = (l.length + fuel + 1) + 1 := by
      rw [List.length_cons, Nat.add_right_comm _ 1]
    rw [List.map_cons, bytes_separated_cons, hfuel, readElements, ha.nextElement]
    simp only [ha.read_text (hends.separated _), hl]
    rfl

theorem list_recovers {l : List α} (h : ∀ a ∈ l, c.Recovers a) : (list c).Recovers l := by
  have htext (rest : Bytes) : bytes ((list c).write l) ++ rest =
      Mark.openArray :: (bytes (commaSeparated (l.map c.write)) ++ Mark.closeArray :: rest) :=
    bytes_between rfl rfl _ rest
  refine .of_skipBlank rfl htext fun s rest _ hs => ?_
  obtain ⟨fuel, hfuel⟩ := exists_turns (l.map c.write) (List.cons_ne_nil Mark.closeArray rest)
  simp only [list, readList, hs, if_true, hfuel, List.length_map]
  rw [commaSeparated_eq]
  exact readElements_separated h fuel true rest

end PluginSlot.Json
