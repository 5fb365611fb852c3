import Mathlib.Algebra.Group.Nat.Defs
import Mathlib.Data.List.DropRight
import PluginSlot.Loader.Load

/-!
Where plugins are looked for by convention: below the root that is configured, whose slashes at the end
do not count, in a directory named by the sixteen digits of the title.
-/
namespace PluginSlot

namespace Text

def upperDigits : List Char :=
  ['0', '1', '2', '3', '4', '5', '6', '7', '8', '9', 'A', 'B', 'C', 'D', 'E', 'F']

/-- The last digit comes after those of the rest of the number. -/
theorem zeroPadded_hexDigits_succ (width n : Nat) : zeroPadded (width + 2) (hexDigits n) =
    zeroPadded (width + 1) (hexDigits (n / 16)) ++ [Nat.digitChar (n % 16)] := by
  rw [hexDigits, Nat.toDigits_eq_if (by decide)]
  split
  next hlt =>
    have hrest : hexDigits (n / 16) = ['0'] := by
      rw [Nat.div_eq_of_lt hlt]
      rfl
    rw [hrest, Nat.mod_eq_of_lt hlt]
    simp [zeroPadded, List.replicate_succ']
  next => simp [zeroPadded, hexDigits]

theorem zeroPadded_hexDigits {width n : Nat} (h : n < 16 ^ (width + 1)) :
    zeroPadded (width + 1) (hexDigits n) =
      (List.range (width + 1)).map fun i => Nat.digitChar (n / 16 ^ (width - i) % 16) := by
  induction width generalizing n with
  | zero =>
    have hlt : n < 16 := h
    rw [hexDigits, Nat.toDigits_of_lt_base hlt]
    simp [zeroPadded, Nat.mod_eq_of_lt hlt]
  | succ width ih =>
    have hrest : n / 16 < 16 ^ (width + 1) := Nat.div_lt_of_lt_mul (by rwa [← Nat.pow_succ'])
    rw [zeroPadded_hexDigits_succ, ih hrest, List.range_succ (n := width + 1), List.map_append]
    congr 1
    · refine List.map_congr_left fun i hi => ?_
      have hle : i ≤ width := Nat.le_of_lt_succ (List.mem_range.mp hi)
      rw [Nat.div_div_eq_div_mul, ← Nat.pow_succ', Nat.succ_sub hle]
    · simp

/-- The digits of a number in order, the highest first. -/
theorem toList_upperHex {width n : Nat} (h : n < 16 ^ (width + 1)) :
    (upperHex (width + 1) n).toList =
      (List.range (width + 1)).map fun i => upperDigits.getD (n / 16 ^ (width - i) % 16) '0' := by
  have hupper : ∀ d, d < 16 → (Nat.digitChar d).toUpper = upperDigits.getD d '0' := by decide
  rw [upperHex, zeroPadded_hexDigits h, String.toList_ofList, List.map_map]
  exact List.map_congr_left fun i _ => hupper _ (Nat.mod_lt _ (by decide))

end Text

namespace Loader
variable (c : Config)

/-- The root is the configured one, but for the slashes at its end. -/
theorem trimmedRoot_spec : ∃ slashes,
    c.pluginRoot.toList = (trimmedRoot c).toList ++ List.replicate slashes '/' ∧
      (trimmedRoot c).toList.getLast? ≠ some '/' := by
  let root := c.pluginRoot.toList
  let isSlash : Char → Bool := (· = '/')
  have htrimmed : (trimmedRoot c).toList = root.rdropWhile isSlash := String.toList_ofList
  have hslashes : root.rtakeWhile isSlash =
      List.replicate (root.rtakeWhile isSlash).length '/' :=
    List.eq_replicate_iff.mpr ⟨rfl, fun x hx =>
      of_decide_eq_true (List.mem_rtakeWhile_imp (p := isSlash) hx)⟩
  refine ⟨(root.rtakeWhile isSlash).length, ?_, fun hlast => ?_⟩
  · rw [← hslashes, htrimmed]
    exact List.rdropWhile_append_rtakeWhile.symm
  · rw [htrimmed] at hlast
    have hne : root.rdropWhile isSlash ≠ [] := by
      intro hnil
      rw [hnil] at hlast
      cases hlast
    rw [List.getLast?_eq_some_getLast hne] at hlast
    exact List.rdropWhile_last_not _ _ hne (decide_eq_true (Option.some.inj hlast))

/-- The path of a title's own plugin, and that of the default one, spelled out. -/
theorem paths_spelled (titleId : UInt64) : ∃ root slashes,
    c.pluginRoot.toList = root ++ List.replicate slashes '/' ∧ root.getLast? ≠ some '/' ∧
      (titlePath c titleId).toList = root ++ '/' :: ((List.range 16).map fun i =>
        Text.upperDigits.getD (titleId.toNat / 16 ^ (15 - i) % 16) '0') ++ "/plugin.plg".toList ∧
      (defaultPath c).toList = root ++ "/default.plg".toList := by
  obtain ⟨slashes, hroot, hlast⟩ := trimmedRoot_spec c
  have hdigits : (Text.upperHex 16 titleId.toNat).toList = (List.range 16).map fun i =>
      Text.upperDigits.getD (titleId.toNat / 16 ^ (15 - i) % 16) '0' :=
    Text.toList_upperHex titleId.toNat_lt
  refine ⟨(trimmedRoot c).toList, slashes, hroot, hlast, ?_, ?_⟩
  · simp [titlePath, hdigits]
  · simp [defaultPath]

end Loader
end PluginSlot
