import Mathlib.Algebra.Group.Nat.Defs
import Mathlib.Data.List.DropRight
import PluginSlot.Wire.Buffer

/-!
What the buffers of requests say. Texts and words are read from exactly those bytes that spell them.
-/
namespace PluginSlot
open Wire

theorem Text.decode_eq_some_iff {bytes : List UInt8} {s : String} :
    decode bytes = some s ↔ bytes = encode s := by
  constructor
  · intro h
    rw [decode, String.fromUTF8?] at h
    split at h
    · cases h
      rfl
    · cases h
  · rintro rfl
    exact decode_encode s

namespace Wire
variable {bytes : List UInt8} {s : String}

/-- There is no zero byte in the text. -/
def ZeroFree (s : String) : Prop := ∀ b ∈ Text.encode s, b ≠ 0

instance (s : String) : Decidable (ZeroFree s) := inferInstanceAs (Decidable (∀ b ∈ Text.encode s, b ≠ 0))

/-- The text fills the buffer, or a zero byte and anything may follow it. -/
def Spells (bytes : List UInt8) (s : String) : Prop :=
  ZeroFree s ∧ (bytes = Text.encode s ∨ ∃ rest, bytes = Text.encode s ++ 0 :: rest)

theorem cString_eq_some_iff : cString bytes = some s ↔ Spells bytes s := by
  constructor
  · intro h
    have htext := Text.decode_eq_some_iff.mp h
    have hfree : ZeroFree s := by
      intro b hb
      rw [← htext] at hb
      simpa using List.mem_takeWhile_imp hb
    refine ⟨hfree, ?_⟩
    have hsplit := List.takeWhile_append_dropWhile (p := (· ≠ 0)) (l := bytes)
    have hstop := List.head?_dropWhile_not (· ≠ (0 : UInt8)) bytes
    rw [htext] at hsplit
    cases hrest : bytes.dropWhile (· ≠ 0) with
    | nil =>
      rw [hrest, List.append_nil] at hsplit
      exact .inl hsplit.symm
    | cons b rest =>
      rw [hrest] at hsplit hstop
      have hb : b = 0 := by simpa using hstop
      exact .inr ⟨rest, by rw [← hsplit, hb]⟩
  · rintro ⟨hfree, rfl | ⟨rest, rfl⟩⟩
    · rw [cString_of_nonzero _ hfree, Text.decode_encode]
    · rw [cString_append_zero _ rest hfree, Text.decode_encode]

instance (bytes : List UInt8) (s : String) : Decidable (Spells bytes s) :=
  decidable_of_iff (cString bytes = some s) cString_eq_some_iff

theorem or_shiftLeft {low i : Nat} (high : Nat) (h : low < 2 ^ i) :
    low ||| high <<< i = low + 2 ^ i * high := by
  rw [Nat.or_comm, ← Nat.shiftLeft_add_eq_or_of_lt h, Nat.shiftLeft_eq, Nat.mul_comm, Nat.add_comm]

theorem toNat_littleEndian (a b c d : UInt8) : (littleEndian a b c d).toNat =
    a.toNat + 2 ^ 8 * b.toNat + 2 ^ 16 * c.toNat + 2 ^ 24 * d.toNat := by
  have ha := a.toNat_lt
  have hb := b.toNat_lt
  have hc := c.toNat_lt
  have hd := d.toNat_lt
  have hfits {x i : Nat} (hx : x < 2 ^ 8) (hi : i ≤ 24) : x <<< i % 2 ^ 32 = x <<< i := by
    have hpow : 2 ^ i ≤ 2 ^ 24 := Nat.pow_le_pow_right (by decide) hi
    have hle : x * 2 ^ i ≤ x * 2 ^ 24 := Nat.mul_le_mul_left x hpow
    rw [Nat.shiftLeft_eq]
    exact Nat.mod_eq_of_lt (by omega)
  simp only [littleEndian, UInt32.toNat_or, UInt32.toNat_shiftLeft, UInt8.toNat_toUInt32]
  show ((a.toNat ||| b.toNat <<< 8 % 2 ^ 32) ||| c.toNat <<< 16 % 2 ^ 32) ||| d.toNat <<< 24 % 2 ^ 32 = _
  rw [hfits hb (by decide), hfits hc (by decide), hfits hd (by decide), or_shiftLeft b.toNat ha,
    or_shiftLeft c.toNat (by omega), or_shiftLeft d.toNat (by omega)]

theorem wordBytes_littleEndian (a b c d : UInt8) : wordBytes (littleEndian a b c d) = [a, b, c, d] := by
  have ha := a.toNat_lt
  have hb := b.toNat_lt
  have hc := c.toNat_lt
  have hd := d.toNat_lt
  have hword := toNat_littleEndian a b c d
  have hbyte {x : UInt8} {i : UInt32}
      (hx : (littleEndian a b c d).toNat / 2 ^ (i.toNat % 32) % 2 ^ 8 = x.toNat) :
      (littleEndian a b c d >>> i).toUInt8 = x := by
    apply UInt8.toNat_inj.mp
    rw [UInt32.toNat_toUInt8, UInt32.toNat_shiftRight, Nat.shiftRight_eq_div_pow, hx]
  have h0 : (littleEndian a b c d).toUInt8 = a := by
    apply UInt8.toNat_inj.mp
    rw [UInt32.toNat_toUInt8]
    omega
  rw [wordBytes, h0, hbyte (x := b), hbyte (x := c), hbyte (x := d)]
  all_goals
    simp
    omega

theorem words?_eq_some_iff {ws : List UInt32} :
    words? bytes = some ws ↔ bytes = ws.flatMap wordBytes := by
  constructor
  · intro h
    induction bytes using words?.induct generalizing ws with
    | case1 =>
      cases h
      rfl
    | case2 a b c d rest ih =>
      simp only [words?, Option.map_eq_some_iff] at h
      obtain ⟨tail, htail, rfl⟩ := h
      simp [wordBytes_littleEndian, ← ih htail]
    | case3 t h1 h2 =>
      rw [words?] at h
      · cases h
      · exact h1
      · exact h2
  · rintro rfl
    exact words?_flatMap_wordBytes ws

/-- A zero byte follows each text. -/
def terminated (texts : List String) : List UInt8 := texts.flatMap fun s => Text.encode s ++ [0]

variable {texts : List String}

theorem splitAtZeros_terminated (htexts : ∀ s ∈ texts, ZeroFree s) (rest : List UInt8) :
    splitAtZeros (terminated texts ++ rest) = texts.map Text.encode ++ splitAtZeros rest := by
  induction texts with
  | nil => rfl
  | cons s texts ih =>
    have hs : ZeroFree s := htexts s (by simp)
    have hrest := ih fun s hs => htexts s (by simp [hs])
    have hcons : terminated (s :: texts) ++ rest = Text.encode s ++ 0 :: (terminated texts ++ rest) := by
      simp [terminated]
    rw [hcons, splitAtZeros_append_zero _ _ hs, hrest]
    rfl

theorem mapM_decode_encode (texts : List String) :
    (texts.map Text.encode).mapM Text.decode = some texts := by
  induction texts with
  | nil => rfl
  | cons s texts ih => simp [Text.decode_encode, ih]

theorem stringList_append_zero (bytes : List UInt8) : stringList (bytes ++ [0]) = stringList bytes := by
  have hdrop : dropTrailingZeros (bytes ++ [0]) = dropTrailingZeros bytes :=
    List.rdropWhile_concat_pos _ _ _ rfl
  rw [stringList, hdrop, stringList]

/-- A buffer that does not end with a zero byte is split as it is. -/
theorem stringList_concat {b : UInt8} (bytes : List UInt8) (hb : b ≠ 0) :
    stringList (bytes ++ [b]) = (splitAtZeros (bytes ++ [b])).mapM Text.decode := by
  have hdrop : dropTrailingZeros (bytes ++ [b]) = bytes ++ [b] :=
    List.rdropWhile_concat_neg _ _ _ (by simpa using hb)
  rw [stringList, hdrop]
  split
  case h_1 hnil => simp at hnil
  case h_2 => rfl

/-- Of texts that are ended by zero bytes, all are read up to the last one that is not empty. -/
theorem stringList_terminated (htexts : ∀ s ∈ texts, ZeroFree s) :
    stringList (terminated texts) = some (texts.rdropWhile String.isEmpty) := by
  induction texts using List.reverseRecOn with
  | nil => rfl
  | append_singleton texts s ih =>
    have hlast : terminated (texts ++ [s]) = terminated texts ++ Text.encode s ++ [0] := by
      simp [terminated]
    have hs : ZeroFree s := htexts s (by simp)
    have hbefore : ∀ t ∈ texts, ZeroFree t := fun t ht => htexts t (by simp [ht])
    rw [hlast, stringList_append_zero]
    cases hempty : s.isEmpty with
    | true =>
      have hnone : s = "" := by simpa using hempty
      rw [List.rdropWhile_concat_pos _ _ _ hempty, ← ih hbefore, hnone]
      exact congrArg stringList (List.append_nil _)
    | false =>
      have hsplit := splitAtZeros_terminated hbefore (Text.encode s)
      rw [splitAtZeros_of_nonzero _ hs] at hsplit
      obtain hnil | ⟨front, b, hb⟩ := (Text.encode s).eq_nil_or_concat
      · have hnone : s = "" := Text.encode_inj hnil
        simp [hnone] at hempty
      · have hnonzero : b ≠ 0 := hs b (by simp [hb])
        rw [List.rdropWhile_concat_neg _ _ _ (by simp [hempty]), ← mapM_decode_encode, List.map_append,
          List.map_singleton, ← hsplit, hb, List.concat_eq_append, ← List.append_assoc]
        exact stringList_concat _ hnonzero

end Wire
end PluginSlot
