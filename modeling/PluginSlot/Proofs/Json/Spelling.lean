import PluginSlot.Proofs.Json.Grammar
/-!
Every spelling of a string is read as that string, and the writer's form is one of them.
-/
namespace PluginSlot.Json
open Text (bytes bytes_append bytes_cons)

theorem utf8EncodeChar_ascii {c : Char} (h : c.toNat < 0x80) :
    String.utf8EncodeChar c = [UInt8.ofNat c.toNat] :=
  if_pos (Nat.le_of_lt_succ h)

theorem HexDigit.read {d : Nat} {c : Char} (h : HexDigit d c) :
    c.toNat < 0x80 ∧ hexDigit (.ofNat c.toNat) = some d := by
  cases h with
  | lower d => revert d; decide
  | upper d => revert d; decide

theorem HexQuad.read {n : Nat} {quad : List Char} (h : HexQuad n quad) (s : Bytes) :
    hexQuad (bytes quad ++ s) = .ok (n, s) := by
  obtain ⟨hx, hy, hz, hw⟩ := h
  simp [bytes, hexQuad, utf8EncodeChar_ascii hx.read.1, utf8EncodeChar_ascii hy.read.1,
    utf8EncodeChar_ascii hz.read.1, utf8EncodeChar_ascii hw.read.1, hx.read.2, hy.read.2, hz.read.2,
    hw.read.2]

theorem not_surrogate (c : Char) : ¬ (0xD800 ≤ c.toNat ∧ c.toNat ≤ 0xDFFF) := by
  have := c.valid
  simp only [UInt32.isValidChar, Nat.isValidChar] at this
  simp only [Char.toNat]
  omega

theorem shortEscape_of_letter : ∀ p ∈ letters,
    String.utf8EncodeChar p.1 = [UInt8.ofNat p.1.toNat] ∧
      shortEscape (.ofNat p.1.toNat) = some (.ofNat p.2.toNat) ∧
      String.utf8EncodeChar p.2 = [UInt8.ofNat p.2.toNat] := by
  decide

theorem EscapeText.read {c : Char} {text : List Char} (h : EscapeText c text) (s : Bytes) :
    escape (bytes text ++ s) = .ok (String.utf8EncodeChar c, s) := by
  have hu (t : List Char) : bytes ('u' :: t) = 0x75 :: bytes t := rfl
  have hshort : shortEscape 0x75 = none := rfl
  cases h with
  | letter h =>
    obtain ⟨hl, hshort, hc⟩ := shortEscape_of_letter _ h
    simp [bytes, hl, escape, hshort, hc]
  | number h =>
    -- the number is no half of a pair, since a character is no surrogate
    have hc := not_surrogate c
    have hlow : ¬ (0xDC00 ≤ c.toNat ∧ c.toNat ≤ 0xDFFF) := by omega
    have hhigh : ¬ (0xD800 ≤ c.toNat ∧ c.toNat ≤ 0xDBFF) := by omega
    rw [hu, List.cons_append, escape, hshort]
    simp only [ne_eq, not_true, if_false, unicodeEscape, h.read, if_neg hlow, if_neg hhigh,
      Char.ofNat_toNat]
  | @pair _ high low quad quad' hhigh hlow hh hl hc =>
    have hne : ¬ (0xDC00 ≤ high ∧ high ≤ 0xDFFF) := by omega
    have hslash : bytes ('\\' :: 'u' :: quad') = Mark.backslash :: 0x75 :: bytes quad' := rfl
    rw [bytes_append, hu, hslash, List.cons_append, List.cons_append, List.append_assoc, escape, hshort]
    simp only [ne_eq, not_true, if_false, unicodeEscape, hhigh.read, if_neg hne, if_pos hh,
      List.cons_append, lowSurrogate, hlow.read, if_pos hl, ← hc, Char.ofNat_toNat]

/-- A byte that stands for itself within a string. -/
def IsPlain (b : UInt8) : Prop := b ≠ Mark.quote ∧ b ≠ Mark.backslash ∧ ¬ b < 0x20

theorem isPlain_of_le {b : UInt8} (h : 0x80 ≤ b) : IsPlain b := by
  simp only [IsPlain, Mark.quote, Mark.backslash, UInt8.lt_iff_toNat_lt, UInt8.le_iff_toNat_le, ne_eq,
    ← UInt8.toNat_inj] at h ⊢
  simp at h ⊢
  omega

theorem le_of_mem_utf8EncodeChar {c : Char} (hc : 0x80 ≤ c.toNat) {b : UInt8}
    (hb : b ∈ String.utf8EncodeChar c) : 0x80 ≤ b := by
  have hle : ¬ c.val.toNat ≤ 0x7f := Nat.not_le_of_lt hc
  rw [String.utf8EncodeChar, if_neg hle] at hb
  rw [UInt8.le_iff_toNat_le]
  split at hb
  · simp at hb
    obtain rfl | rfl := hb <;> simp <;> omega
  · split at hb
    · simp at hb
      obtain rfl | rfl | rfl := hb <;> simp <;> omega
    · simp at hb
      obtain rfl | rfl | rfl | rfl := hb <;> simp <;> omega

theorem isPlain_utf8EncodeChar {c : Char} (hquote : c ≠ '\x22') (hslash : c ≠ '\\')
    (hcontrol : 0x20 ≤ c.toNat) {b : UInt8} (hb : b ∈ String.utf8EncodeChar c) : IsPlain b := by
  by_cases hc : c.toNat < 0x80
  · rw [utf8EncodeChar_ascii hc, List.mem_singleton] at hb
    have hnat : b.toNat = c.toNat := by
      rw [hb, UInt8.toNat_ofNat']
      omega
    refine ⟨fun h => hquote ?_, fun h => hslash ?_, fun h => ?_⟩
    · exact Char.toNat_inj.mp (by rw [← hnat, h]; rfl)
    · exact Char.toNat_inj.mp (by rw [← hnat, h]; rfl)
    · rw [UInt8.lt_iff_toNat_lt, hnat] at h
      exact absurd hcontrol (Nat.not_le_of_lt h)
  · exact isPlain_of_le (le_of_mem_utf8EncodeChar (by omega) hb)

theorem stringBytes_plain {plain : Bytes} (h : ∀ b ∈ plain, IsPlain b) (fuel : Nat) (done s : Bytes) :
    stringBytes (plain.length + fuel) done (plain ++ s) =
      stringBytes fuel (plain.reverse ++ done) s := by
  induction plain generalizing done with
  | nil => simp
  | cons b plain ih =>
    obtain ⟨hquote, hslash, hcontrol⟩ := h b (by simp)
    rw [List.length_cons, Nat.add_right_comm, List.cons_append, stringBytes, if_neg hquote,
      if_neg hslash, if_neg hcontrol, ih fun b hb => h b (by simp [hb])]
    simp

/-- A character is read in at most as many turns as its spelling has bytes. -/
theorem CharText.read {c : Char} {text : List Char} (h : CharText c text) :
    ∃ n ≤ (bytes text).length, ∀ (fuel : Nat) (done s : Bytes),
      stringBytes (n + fuel) done (bytes text ++ s) =
        stringBytes fuel ((String.utf8EncodeChar c).reverse ++ done) s := by
  cases h with
  | plain hquote hslash hcontrol =>
    refine ⟨_, Nat.le_refl _, fun fuel done s => ?_⟩
    have hbytes : bytes [c] = String.utf8EncodeChar c := by simp [bytes]
    rw [hbytes]
    exact stringBytes_plain (fun b hb => isPlain_utf8EncodeChar hquote hslash hcontrol hb) fuel done s
  | @escaped text h =>
    have hbytes : bytes ('\\' :: text) = Mark.backslash :: bytes text := rfl
    rw [hbytes]
    refine ⟨1, by simp, fun fuel done s => ?_⟩
    have hne : Mark.backslash ≠ Mark.quote := by decide
    rw [Nat.add_comm, List.cons_append, stringBytes, if_neg hne, if_pos rfl, h.read]

/-- The characters are collected with the latest byte first. -/
theorem stringBytes_charTexts {cs : List Char} {ts : List (List Char)}
    (h : List.Forall₂ CharText cs ts) :
    ∃ n ≤ (bytes ts.flatten).length, ∀ (fuel : Nat) (done s : Bytes),
      stringBytes (n + fuel) done (bytes ts.flatten ++ s) =
        stringBytes fuel ((bytes cs).reverse ++ done) s := by
  induction h with
  | nil => exact ⟨0, Nat.le_refl _, by simp⟩
  | @cons c t cs ts hc _ ih =>
    obtain ⟨n, hn, hread⟩ := hc.read
    obtain ⟨m, hm, hreads⟩ := ih
    refine ⟨n + m, by simp; omega, fun fuel done s => ?_⟩
    rw [List.flatten_cons, bytes_append, List.append_assoc, Nat.add_assoc, hread, hreads, bytes_cons,
      List.reverse_append, List.append_assoc]

/-- Whatever way a string is spelled, its characters are read back. -/
theorem stringBody_charTexts {s : String} {ts : List (List Char)}
    (h : List.Forall₂ CharText s.toList ts) (rest : Bytes) :
    stringBody (bytes ts.flatten ++ Mark.quote :: rest) = .ok (s, rest) := by
  obtain ⟨n, hn, hread⟩ := stringBytes_charTexts h
  obtain ⟨m, hm⟩ : ∃ m, (bytes ts.flatten ++ Mark.quote :: rest).length + 1 = n + (m + 1) :=
    ⟨(bytes ts.flatten ++ Mark.quote :: rest).length - n, by simp; omega⟩
  rw [stringBody, hm, hread, stringBytes, if_pos rfl]
  simp only [List.append_nil, List.reverse_reverse, ← Text.encode_eq_bytes, Text.decode_encode]

theorem hexDigit_digitChar {d : Nat} (h : d < 16) : HexDigit d (Nat.digitChar d) := .lower ⟨d, h⟩

theorem charText_letter {l c : Char} (h : (l, c) ∈ letters) : CharText c ['\\', l] :=
  .escaped (.letter h)

/-- What is written for a character is one of its spellings. -/
theorem charText_escaped (c : Char) : CharText c (escaped c) := by
  rw [escaped]
  split_ifs with hquote hslash hback htab hline hfeed hreturn hcontrol
  · subst hquote; exact charText_letter (by decide)
  · subst hslash; exact charText_letter (by decide)
  · subst hback; exact charText_letter (by decide)
  · subst htab; exact charText_letter (by decide)
  · subst hline; exact charText_letter (by decide)
  · subst hfeed; exact charText_letter (by decide)
  · subst hreturn; exact charText_letter (by decide)
  · -- a control character without a letter of its own goes by number
    have hquad : HexQuad (((0 * 16 + 0) * 16 + c.toNat / 16) * 16 + c.toNat % 16) _ :=
      .digits (hexDigit_digitChar (by decide)) (hexDigit_digitChar (by decide))
        (hexDigit_digitChar (by omega)) (hexDigit_digitChar (by omega))
    rw [show ((0 * 16 + 0) * 16 + c.toNat / 16) * 16 + c.toNat % 16 = c.toNat by omega] at hquad
    exact .escaped (.number hquad)
  · exact .plain hquote hslash (Nat.le_of_not_lt hcontrol)

theorem stringText_quoted (s : String) : StringText s (quoted s) :=
  ⟨s.toList.map escaped,
    List.forall₂_map_right_iff.mpr (List.forall₂_same.mpr fun c _ => charText_escaped c),
    by simp [quoted, List.flatMap]⟩

end PluginSlot.Json
