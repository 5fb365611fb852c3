import PluginSlot.Text.Utf8
/-!
Contents of request buffers: texts ended by a zero byte, runs of such texts, and little-endian
words.
-/
namespace PluginSlot.Wire

/-- The text before the first zero byte, or the whole buffer if there is none. -/
def cString (buffer : List UInt8) : Option String :=
  Text.decode (buffer.takeWhile (· ≠ 0))

def splitAtZeros : List UInt8 → List (List UInt8)
  | [] => [[]]
  | b :: rest =>
    if b = 0 then [] :: splitAtZeros rest
    else match splitAtZeros rest with
      | [] => [[b]]
      | piece :: pieces => (b :: piece) :: pieces

def dropTrailingZeros (buffer : List UInt8) : List UInt8 :=
  (buffer.reverse.dropWhile (· = 0)).reverse

/-- The texts of a buffer, after its trailing zero bytes are dropped; a buffer of zero bytes
holds none. -/
def stringList (buffer : List UInt8) : Option (List String) :=
  match dropTrailingZeros buffer with
  | [] => some []
  | kept => (splitAtZeros kept).mapM Text.decode

def littleEndian (a b c d : UInt8) : UInt32 :=
  a.toUInt32 ||| (b.toUInt32 <<< 8) ||| (c.toUInt32 <<< 16) ||| (d.toUInt32 <<< 24)

def wordBytes (w : UInt32) : List UInt8 :=
  [w.toUInt8, (w >>> 8).toUInt8, (w >>> 16).toUInt8, (w >>> 24).toUInt8]

/-- The words of a buffer whose length is a multiple of four. -/
def words? : List UInt8 → Option (List UInt32)
  | [] => some []
  | a :: b :: c :: d :: rest => (words? rest).map (littleEndian a b c d :: ·)
  | _ => none

/-- Bytes followed by zeros up to the capacity. -/
def zeroFilled (capacity : Nat) (bytes : List UInt8) : List UInt8 :=
  bytes ++ List.replicate (capacity - bytes.length) 0

theorem cString_append_zero (bytes rest : List UInt8) (h : ∀ b ∈ bytes, b ≠ 0) :
    cString (bytes ++ 0 :: rest) = Text.decode bytes := by
  rw [cString, List.takeWhile_append_of_pos (by simpa using h)]
  simp

theorem cString_of_nonzero (bytes : List UInt8) (h : ∀ b ∈ bytes, b ≠ 0) :
    cString bytes = Text.decode bytes := by
  have : bytes.takeWhile (· ≠ 0) = bytes := by
    induction bytes with
    | nil => rfl
    | cons b rest ih => simp_all
  rw [cString, this]

theorem length_of_words? {buffer : List UInt8} {ws : List UInt32} (h : words? buffer = some ws) :
    buffer.length = 4 * ws.length := by
  induction buffer using words?.induct generalizing ws with
  | case1 => simp_all [words?]
  | case2 a b c d rest ih =>
    simp only [words?, Option.map_eq_some_iff] at h
    obtain ⟨tail, ht, rfl⟩ := h
    simp [ih ht]
    omega
  | case3 t h1 h2 =>
    rw [words?] at h
    · cases h
    · exact h1
    · exact h2

/-- A piece without zero bytes and the zero after it are split off. -/
theorem splitAtZeros_append_zero (piece rest : List UInt8) (h : ∀ b ∈ piece, b ≠ 0) :
    splitAtZeros (piece ++ 0 :: rest) = piece :: splitAtZeros rest := by
  induction piece with
  | nil => simp [splitAtZeros]
  | cons b tail ih =>
    have hb : b ≠ 0 := h b (by simp)
    have ht := ih fun x hx => h x (by simp [hx])
    simp only [List.cons_append, splitAtZeros, if_neg hb, ht]

theorem splitAtZeros_of_nonzero (piece : List UInt8) (h : ∀ b ∈ piece, b ≠ 0) :
    splitAtZeros piece = [piece] := by
  induction piece with
  | nil => rfl
  | cons b tail ih =>
    have hb : b ≠ 0 := h b (by simp)
    have ht := ih fun x hx => h x (by simp [hx])
    simp only [splitAtZeros, if_neg hb, ht]

theorem littleEndian_wordBytes (w : UInt32) :
    littleEndian w.toUInt8 (w >>> 8).toUInt8 (w >>> 16).toUInt8 (w >>> 24).toUInt8 = w := by
  have h8 : UInt32.toBitVec 8 % 32 = 8#32 := rfl
  have h16 : UInt32.toBitVec 16 % 32 = 16#32 := rfl
  have h24 : UInt32.toBitVec 24 % 32 = 24#32 := rfl
  apply UInt32.toBitVec_inj.mp
  simp only [littleEndian, UInt32.toBitVec_or, UInt32.toBitVec_shiftLeft, UInt8.toBitVec_toUInt32,
    UInt32.toBitVec_toUInt8, UInt32.toBitVec_shiftRight, h8, h16, h24]
  refine BitVec.eq_of_getLsbD_eq fun i hi => ?_
  simp only [BitVec.getLsbD_or, BitVec.shiftLeft_eq', BitVec.ushiftRight_eq',
    BitVec.getLsbD_shiftLeft, BitVec.getLsbD_setWidth, BitVec.getLsbD_ushiftRight,
    BitVec.toNat_ofNat, Nat.reducePow, Nat.reduceMod, hi, decide_true, Bool.true_and]
  generalize w.toBitVec.getLsbD = bit
  have below : ∀ k, decide (i - k < 32) = true := fun k => decide_eq_true (by omega)
  rcases Nat.lt_or_ge i 8 with h | h
  · have h₂ : i < 16 := by omega
    have h₃ : i < 24 := by omega
    simp [h, h₂, h₃]
  rcases Nat.lt_or_ge i 16 with h₂ | h₂
  · have h₃ : i < 24 := by omega
    have hb : i - 8 < 8 := by omega
    simp [Nat.not_lt.mpr h, h₂, h₃, hb, below, Nat.add_sub_cancel' h]
  have hb : ¬ i - 8 < 8 := by omega
  rcases Nat.lt_or_ge i 24 with h₃ | h₃
  · have hc : i - 16 < 8 := by omega
    simp [Nat.not_lt.mpr h, Nat.not_lt.mpr h₂, h₃, hb, hc, below, Nat.add_sub_cancel' h₂]
  · have hc : ¬ i - 16 < 8 := by omega
    have hd : i - 24 < 8 := by omega
    simp [Nat.not_lt.mpr h, Nat.not_lt.mpr h₂, Nat.not_lt.mpr h₃, hb, hc, hd, below,
      Nat.add_sub_cancel' h₃]

theorem words?_flatMap_wordBytes (ws : List UInt32) : words? (ws.flatMap wordBytes) = some ws := by
  induction ws with
  | nil => rfl
  | cons w rest ih =>
    rw [List.flatMap_cons]
    show (words? (rest.flatMap wordBytes)).map _ = _
    rw [ih, littleEndian_wordBytes]
    rfl

end PluginSlot.Wire
