import PluginSlot.Proofs.Json.Reading
/-!
Whole numbers of at most 64 bits are read back from their decimal digits.
-/
namespace PluginSlot.Json
open Text (bytes bytes_append bytes_cons)

/-- The number that digits append to another one. -/
def appended (n : Nat) (digits : Bytes) : Nat := digits.foldl (fun v b => v * 10 + digitValue b) n

theorem le_appended (n : Nat) (digits : Bytes) : n ≤ appended n digits := by
  induction digits generalizing n with
  | nil => exact Nat.le_refl n
  | cons b digits ih => exact Nat.le_trans (by omega) (ih (n * 10 + digitValue b))

/-- While the number has at most 64 bits no digit is left out. -/
theorem accumulate_eq {n : Nat} {digits : Bytes} (h : appended n digits ≤ limit64) :
    accumulate n digits = (appended n digits, 0) := by
  induction digits generalizing n with
  | nil => rfl
  | cons b digits ih =>
    have hfits : ¬ n * 10 + digitValue b > limit64 :=
      Nat.not_lt.mpr (Nat.le_trans (le_appended _ digits) h)
    rw [accumulate, if_neg hfits, ih h]
    rfl

theorem utf8EncodeChar_digit {c : Char} (h : c.isDigit = true) : ∃ b, String.utf8EncodeChar c = [b] ∧
    isDigit b = true ∧ digitValue b = c.toNat - 48 ∧ (b = 0x30 → c = '0') := by
  have hc : 48 ≤ c.toNat ∧ c.toNat ≤ 57 := by simpa [Char.isDigit, UInt32.le_iff_toNat_le] using h
  have hb : (UInt8.ofNat c.toNat).toNat = c.toNat := by
    rw [UInt8.toNat_ofNat']
    omega
  refine ⟨_, utf8EncodeChar_ascii (by omega), ?_, ?_, fun h => ?_⟩
  · simpa [isDigit, UInt8.le_iff_toNat_le, hb] using hc
  · rw [digitValue, hb]
  · exact Char.toNat_inj.mp (hb ▸ congrArg UInt8.toNat h)

theorem isDigit_bytes {cs : List Char} (h : ∀ c ∈ cs, c.isDigit = true) {b : UInt8}
    (hb : b ∈ bytes cs) : isDigit b = true := by
  obtain ⟨c, hc, hb⟩ := List.mem_flatMap.mp hb
  obtain ⟨b', hbytes, hdigit, -⟩ := utf8EncodeChar_digit (h c hc)
  rw [hbytes, List.mem_singleton] at hb
  exact hb ▸ hdigit

theorem appended_bytes {cs : List Char} (h : ∀ c ∈ cs, c.isDigit = true) (n : Nat) :
    appended n (bytes cs) = Nat.ofDigitChars 10 cs n := by
  induction cs generalizing n with
  | nil => rfl
  | cons c cs ih =>
    obtain ⟨b, hbytes, -, hvalue, -⟩ := utf8EncodeChar_digit (h c (by simp))
    rw [bytes_cons, hbytes, Nat.ofDigitChars_cons, ← ih fun c hc => h c (by simp [hc])]
    simp [appended, hvalue, Nat.mul_comm]

/-- The first digit of a number is zero only if the number is. -/
theorem toDigits_of_pos {n : Nat} (h : 0 < n) : ∃ c cs, Nat.toDigits 10 n = c :: cs ∧ c ≠ '0' := by
  induction n using Nat.strongRecOn with
  | ind n ih =>
    rw [Nat.toDigits_eq_if (by decide)]
    split
    next hlt =>
      refine ⟨_, [], rfl, fun h0 => ?_⟩
      have := congrArg Char.toNat h0
      rw [Nat.toNat_digitChar_of_lt_ten hlt] at this
      simp at this
      omega
    next hle =>
      obtain ⟨c, cs, hc, hne⟩ := ih (n / 10) (by omega) (by omega)
      exact ⟨c, cs ++ _, by rw [hc]; rfl, hne⟩

theorem isDigit_toDigits {n : Nat} : ∀ c ∈ Nat.toDigits 10 n, c.isDigit = true :=
  fun _ => Nat.isDigit_of_mem_toDigits (by decide) (by decide)

theorem appended_toDigits (n : Nat) : appended 0 (bytes (Nat.toDigits 10 n)) = n := by
  rw [appended_bytes isDigit_toDigits, Nat.ofDigitChars_ten_toDigits]

theorem Ends.parts {b : UInt8} {s : Bytes} (h : Ends (b :: s)) :
    isDigit b = false ∧ b ≠ Mark.point ∧ isExponentMark b = false := by
  have := h b rfl
  simpa [Parts, and_assoc] using this

/-- A number whose digits were all kept ends where no number goes on. -/
theorem afterWhole_ends {rest : Bytes} (h : Ends rest) (n : Nat) :
    afterWhole false n 0 rest = .ok (.natural n, rest) := by
  cases rest with
  | nil => rfl
  | cons b s =>
    obtain ⟨-, hpoint, hmark⟩ := h.parts
    rw [afterWhole, if_neg hpoint, hmark]
    rfl

theorem takeWhile_isDigit {digits rest : Bytes} (h : ∀ b ∈ digits, isDigit b = true)
    (hrest : Ends rest) :
    (digits ++ rest).takeWhile isDigit = digits ∧ (digits ++ rest).dropWhile isDigit = rest := by
  rw [List.takeWhile_append_of_pos h, List.dropWhile_append_of_pos h]
  cases rest with
  | nil => simp
  | cons b s => simp [hrest.parts.1]

/-- Zero is written by its digit alone. -/
theorem unsignedNumber_zero {rest : Bytes} (hrest : Ends rest) :
    unsignedNumber false (0x30 :: rest) = .ok (.natural 0, rest) := by
  have hafter := afterWhole_ends hrest 0
  cases rest with
  | nil => exact hafter
  | cons b s =>
    have hdigit : isDigit 0x30 = true := rfl
    simp only [unsignedNumber, hdigit, hrest.parts.1]
    exact hafter

theorem bytes_toDigits (n : Nat) : ∃ b s, bytes (Nat.toDigits 10 n) = b :: s ∧ isDigit b = true ∧
    (b = 0x30 → n = 0) := by
  obtain rfl | hpos := Nat.eq_zero_or_pos n
  · exact ⟨0x30, [], rfl, rfl, fun _ => rfl⟩
  · obtain ⟨c, cs, hc, hne⟩ := toDigits_of_pos hpos
    obtain ⟨b, hb, hdigit, -, hzero⟩ := utf8EncodeChar_digit (isDigit_toDigits c (by rw [hc]; simp))
    exact ⟨b, bytes cs, by rw [hc, bytes_cons, hb]; rfl, hdigit, fun h => absurd (hzero h) hne⟩

theorem unsignedNumber_toDigits {n : Nat} (hn : n ≤ limit64) {rest : Bytes} (hrest : Ends rest) :
    unsignedNumber false (bytes (Nat.toDigits 10 n) ++ rest) = .ok (.natural n, rest) := by
  obtain ⟨b, s, hcons, hdigit, hzero⟩ := bytes_toDigits n
  by_cases hb : b = 0x30
  · rw [hzero hb]
    exact unsignedNumber_zero hrest
  · have hall : ∀ b ∈ bytes (Nat.toDigits 10 n), isDigit b = true :=
      fun _ hb => isDigit_bytes isDigit_toDigits hb
    obtain ⟨htake, hdrop⟩ := takeWhile_isDigit hall hrest
    have hvalue : accumulate 0 (bytes (Nat.toDigits 10 n)) = (n, 0) := by
      rw [accumulate_eq (by rwa [appended_toDigits]), appended_toDigits]
    rw [hcons, List.cons_append] at htake hdrop ⊢
    rw [hcons] at hvalue
    simp only [unsignedNumber, hdigit, Bool.not_true, Bool.false_eq_true, if_false, if_neg hb, htake,
      hdrop, hvalue]
    exact afterWhole_ends hrest n

theorem begins_of_isDigit {b : UInt8} (h : isDigit b = true) : Begins b = true ∧ b ≠ Mark.minus := by
  have hne (c : UInt8) (hc : isDigit c = false) : b ≠ c := by
    rintro rfl
    rw [h] at hc
    cases hc
  simp [Begins, isBlank, hne 0x20 rfl, hne 0x0A rfl, hne 0x0D rfl, hne 0x09 rfl,
    hne Mark.closeArray rfl, hne Mark.minus rfl]

theorem natural_recovers {limit n : Nat} (hlimit : limit ≤ limit64) (hn : n ≤ limit) :
    (natural limit).Recovers n := by
  obtain ⟨b, digits, hcons, hdigit, -⟩ := bytes_toDigits n
  obtain ⟨hbegins, hminus⟩ := begins_of_isDigit hdigit
  have htext (rest : Bytes) : bytes ((natural limit).write n) ++ rest = b :: (digits ++ rest) :=
    congrArg (· ++ rest) hcons
  refine .of_skipBlank hbegins htext fun s rest hrest hs => ?_
  have hread := unsignedNumber_toDigits (Nat.le_trans hn hlimit) hrest
  rw [hcons, List.cons_append] at hread
  simp only [natural, readNatural, hs, hdigit, Bool.or_true, if_true, number, if_neg hminus, hread,
    if_pos hn]

@[simp] theorem word64_recovers (n : UInt64) : word64.Recovers n :=
  (natural_recovers (by decide) (Nat.le_pred_of_lt n.toNat_lt)).map UInt64.ofNat_toNat

@[simp] theorem word32_recovers (n : UInt32) : word32.Recovers n :=
  (natural_recovers (by decide) (Nat.le_pred_of_lt n.toNat_lt)).map UInt32.ofNat_toNat

@[simp] theorem word16_recovers (n : UInt16) : word16.Recovers n :=
  (natural_recovers (by decide) (Nat.le_pred_of_lt n.toNat_lt)).map UInt16.ofNat_toNat

end PluginSlot.Json
