import PluginSlot.Proofs.Json.Spelling
/-!
What it is that a reader gets a value from a text, wherever the text stands; truth values and strings
are read from what is written for them.
-/
namespace PluginSlot.Json
open Text (bytes bytes_append bytes_cons)

/-- No number goes on with this byte. -/
def Parts (b : UInt8) : Bool := !isDigit b && b ≠ Mark.point && !isExponentMark b

/-- The bytes after a value do not belong to it. -/
def Ends (rest : Bytes) : Prop := ∀ b ∈ rest.head?, Parts b = true

/-- The byte is no blank before a value, and no end of a list of values. -/
def Begins (b : UInt8) : Bool := !isBlank b && b ≠ Mark.closeArray

/-- The value that is read from a text, with blanks before it and anything after it. -/
structure Reads {α : Type} (read : Reader α) (text : List Char) (a : α) : Prop where
  begins : ∃ b s, bytes text = b :: s ∧ Begins b = true
  read_append : ∀ w rest, Blanks w → Ends rest → read (bytes w ++ (bytes text ++ rest)) = .ok (a, rest)

/-- What is written for a value is read back as the value. -/
def Codec.Recovers {α : Type} (c : Codec α) (a : α) : Prop := Reads c.read (c.write a) a

theorem blanks_nil : Blanks [] := by simp [Blanks]

theorem isBlank_of_blanks {w : List Char} (hw : Blanks w) {b : UInt8} (hb : b ∈ bytes w) :
    isBlank b = true := by
  obtain ⟨c, hc, hb⟩ := List.mem_flatMap.mp hb
  obtain rfl | rfl | rfl | rfl := hw c hc <;> rw [List.mem_singleton.mp hb] <;> rfl

theorem not_blank_of_begins {b : UInt8} (h : Begins b = true) : isBlank b = false := by
  simp only [Begins, Bool.and_eq_true, Bool.not_eq_true'] at h
  exact h.1

theorem skipBlank_blanks {w : List Char} (hw : Blanks w) (s : Bytes) :
    skipBlank (bytes w ++ s) = skipBlank s :=
  List.dropWhile_append_of_pos fun _ hb => isBlank_of_blanks hw hb

theorem skipBlank_cons {b : UInt8} (hb : isBlank b = false) (s : Bytes) :
    skipBlank (b :: s) = b :: s := by
  simp [skipBlank, hb]

/-- A text that follows blanks. -/
theorem skipBlank_text {w : List Char} (hw : Blanks w) {b : UInt8} (hb : isBlank b = false)
    (s : Bytes) : skipBlank (bytes w ++ b :: s) = b :: s := by
  rw [skipBlank_blanks hw, skipBlank_cons hb]

theorem ends_nil : Ends [] := by simp [Ends]

theorem ends_cons {b : UInt8} (h : Parts b = true) (s : Bytes) : Ends (b :: s) := by
  simpa [Ends] using h

theorem Ends.blanks {w : List Char} (hw : Blanks w) {rest : Bytes} (h : Ends rest) :
    Ends (bytes w ++ rest) := by
  cases hbytes : bytes w with
  | nil => exact h
  | cons b s =>
    have hb : isBlank b = true := isBlank_of_blanks hw (by simp [hbytes])
    refine ends_cons ?_ _
    simp only [isBlank, decide_eq_true_eq] at hb
    obtain rfl | rfl | rfl | rfl := hb <;> decide

section
variable {α : Type} {read : Reader α} {text : List Char} {a : α}

theorem Reads.read_text (h : Reads read text a) {rest : Bytes} (hrest : Ends rest) :
    read (bytes text ++ rest) = .ok (a, rest) :=
  h.read_append [] rest blanks_nil hrest

/-- A reader that skips blanks reads a text if it reads what begins with the text's first byte. -/
theorem Reads.of_skipBlank {b : UInt8} {body : Bytes → Bytes} (hb : Begins b = true)
    (htext : ∀ rest, bytes text ++ rest = b :: body rest)
    (hread : ∀ s rest, Ends rest → skipBlank s = b :: body rest → read s = .ok (a, rest)) :
    Reads read text a := by
  refine ⟨⟨b, body [], by simpa using htext [], hb⟩, fun w rest hw hrest => hread _ rest hrest ?_⟩
  rw [htext, skipBlank_text hw (not_blank_of_begins hb)]

end

/-- The whole text of a value is decoded to it. -/
theorem Codec.Recovers.decode {α : Type} {c : Codec α} {a : α} (h : c.Recovers a) :
    c.decode (Text.encode (c.text a)) = .ok a := by
  have hread := h.read_text ends_nil
  rw [List.append_nil] at hread
  rw [Codec.text, Text.encode_ofList, Codec.decode, hread]
  rfl

theorem Codec.Recovers.map {α β : Type} {c : Codec α} {f : α → β} {g : β → α} {b : β}
    (h : c.Recovers (g b)) (hfg : f (g b) = b) : (c.map f g).Recovers b where
  begins := h.begins
  read_append w rest hw hrest := by
    have := h.read_append w rest hw hrest
    simp only [Codec.map, this, Except.map, hfg]

@[simp] theorem bool_recovers (b : Bool) : bool.Recovers b := by
  cases b with
  | true =>
    have htext (rest : Bytes) : bytes (bool.write true) ++ rest = 0x74 :: (rue ++ rest) := rfl
    refine .of_skipBlank rfl htext fun s rest _ hs => ?_
    simp only [bool, readBool, hs, if_pos]
    rfl
  | false =>
    have htext (rest : Bytes) : bytes (bool.write false) ++ rest = 0x66 :: (alse ++ rest) := rfl
    refine .of_skipBlank rfl htext fun s rest _ hs => ?_
    simp only [bool, readBool, hs]
    rfl

/-- A text between two marks. -/
theorem bytes_between {x y : Char} {b b' : UInt8} (hx : String.utf8EncodeChar x = [b])
    (hy : String.utf8EncodeChar y = [b']) (cs : List Char) (rest : Bytes) :
    bytes (x :: cs ++ [y]) ++ rest = b :: (bytes cs ++ b' :: rest) := by
  simp [bytes, hx, hy]

/-- After the opening quote, a spelling of a string is read to the closing one. -/
theorem StringText.body {s : String} {text : List Char} (h : StringText s text) :
    ∃ body : Bytes, ∀ rest : Bytes, bytes text ++ rest = Mark.quote :: (body ++ rest) ∧
      stringBody (body ++ rest) = .ok (s, rest) := by
  obtain ⟨ts, hts, rfl⟩ := h
  refine ⟨bytes ts.flatten ++ [Mark.quote], fun rest => ?_⟩
  rw [List.append_assoc]
  exact ⟨bytes_between rfl rfl _ rest, stringBody_charTexts hts rest⟩

/-- Every spelling of a string is read. -/
theorem StringText.reads {s : String} {text : List Char} (h : StringText s text) :
    Reads readString text s := by
  obtain ⟨body, hbody⟩ := h.body
  refine .of_skipBlank rfl (fun rest => (hbody rest).1) fun t rest _ ht => ?_
  rw [readString, ht]
  exact (hbody rest).2

@[simp] theorem string_recovers (s : String) : string.Recovers s := (stringText_quoted s).reads

end PluginSlot.Json
