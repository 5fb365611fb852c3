import PluginSlot.Json.Codec
import Mathlib.Data.List.Forall2
/-!
The spellings of JSON: what the text of a string, of a member and of an object may be, whoever wrote
it. Blanks stand between tokens, and within a string each character has several forms.
-/
namespace PluginSlot.Json

def Blanks (w : List Char) : Prop := ∀ c ∈ w, c = ' ' ∨ c = '\n' ∨ c = '\x0d' ∨ c = '\t'

/-- The hexadecimal digits, in either case. -/
inductive HexDigit : Nat → Char → Prop where
  | lower (d : Fin 16) : HexDigit d (Nat.digitChar d)
  | upper (d : Fin 16) : HexDigit d (Nat.digitChar d).toUpper

/-- Four digits, and the number they are. -/
inductive HexQuad : Nat → List Char → Prop where
  | digits {a b c d : Nat} {x y z w : Char} (hx : HexDigit a x) (hy : HexDigit b y)
    (hz : HexDigit c z) (hw : HexDigit d w) :
    HexQuad (((a * 16 + b) * 16 + c) * 16 + d) [x, y, z, w]

/-- The characters that a letter after a backslash stands for. -/
def letters : List (Char × Char) :=
  [('\x22', '\x22'), ('\\', '\\'), ('/', '/'), ('b', '\x08'), ('f', '\x0c'), ('n', '\n'), ('r', '\x0d'),
    ('t', '\t')]

/-- What stands for a character after a backslash. -/
inductive EscapeText : Char → List Char → Prop where
  | letter {l c : Char} (h : (l, c) ∈ letters) : EscapeText c [l]
  | number {c : Char} {quad : List Char} (h : HexQuad c.toNat quad) : EscapeText c ('u' :: quad)
  /-- A character beyond the first plane, by the halves of its surrogate pair. -/
  | pair {c : Char} {high low : Nat} {quad quad' : List Char} (hhigh : HexQuad high quad)
    (hlow : HexQuad low quad') (hh : 0xD800 ≤ high ∧ high ≤ 0xDBFF) (hl : 0xDC00 ≤ low ∧ low ≤ 0xDFFF)
    (hc : c.toNat = (high - 0xD800) * 0x400 + (low - 0xDC00) + 0x10000) :
    EscapeText c ('u' :: quad ++ '\\' :: 'u' :: quad')

/-- What stands for a character within a string. -/
inductive CharText : Char → List Char → Prop where
  | plain {c : Char} (hquote : c ≠ '\x22') (hslash : c ≠ '\\') (hcontrol : 0x20 ≤ c.toNat) :
    CharText c [c]
  | escaped {c : Char} {text : List Char} (h : EscapeText c text) : CharText c ('\\' :: text)

def StringText (s : String) (text : List Char) : Prop :=
  ∃ ts, List.Forall₂ CharText s.toList ts ∧ text = '\x22' :: ts.flatten ++ ['\x22']

/-- A member of an object, its value being spelled in one of some ways. -/
inductive MemberText (name : String) (value : List Char → Prop) : List Char → Prop where
  | member {w₀ key w₁ w₂ text w₃ : List Char} (h₀ : Blanks w₀) (hkey : StringText name key)
    (h₁ : Blanks w₁) (h₂ : Blanks w₂) (hvalue : value text) (h₃ : Blanks w₃) :
    MemberText name value (w₀ ++ key ++ w₁ ++ ':' :: w₂ ++ text ++ w₃)

/-- An object of some members, in this order, with blanks around it. -/
inductive ObjectText (members : List (String × (List Char → Prop))) : List Char → Prop where
  | object {w₀ w₁ w₂ : List Char} {texts : List (List Char)} (h₀ : Blanks w₀)
    (h : List.Forall₂ (fun m => MemberText m.1 m.2) members texts) (h₁ : Blanks w₁) (h₂ : Blanks w₂) :
    ObjectText members (w₀ ++ '\x7b' :: commaSeparated texts ++ w₁ ++ '\x7d' :: w₂)

end PluginSlot.Json
