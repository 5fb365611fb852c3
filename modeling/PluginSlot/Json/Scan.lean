import PluginSlot.Text.Utf8
/-!
The pieces of a JSON text, read from the front of a byte sequence. Each reader gives what it read and
the bytes that follow, or the first fault it met.
-/
namespace PluginSlot.Json

abbrev Bytes := List UInt8

inductive Fault where
  /-- No JSON text begins like this. -/
  | malformed
  /-- The text ends too early. -/
  | truncated
  /-- A value of another shape was asked for. -/
  | mismatch
deriving DecidableEq, Repr

/-- A reader gives a value and the rest. -/
abbrev Reader (α : Type) := Bytes → Except Fault (α × Bytes)

def isBlank (b : UInt8) : Bool := b = 0x20 ∨ b = 0x0A ∨ b = 0x0D ∨ b = 0x09

def skipBlank (s : Bytes) : Bytes := s.dropWhile isBlank

namespace Mark
def quote : UInt8 := 0x22
def backslash : UInt8 := 0x5C
def comma : UInt8 := 0x2C
def colon : UInt8 := 0x3A
def openArray : UInt8 := 0x5B
def closeArray : UInt8 := 0x5D
def openObject : UInt8 := 0x7B
def closeObject : UInt8 := 0x7D
def minus : UInt8 := 0x2D
def plus : UInt8 := 0x2B
def point : UInt8 := 0x2E
end Mark

def word : Bytes → Bytes → Except Fault Bytes
  | [], s => .ok s
  | _ :: _, [] => .error .truncated
  | w :: ws, b :: s => if b = w then word ws s else .error .malformed

def rull : Bytes := [0x75, 0x6C, 0x6C]
def rue : Bytes := [0x72, 0x75, 0x65]
def alse : Bytes := [0x61, 0x6C, 0x73, 0x65]

def colon (s : Bytes) : Except Fault Bytes :=
  match skipBlank s with
  | [] => .error .truncated
  | b :: s => if b = Mark.colon then .ok s else .error .malformed

/-- The four hexadecimal digits of an escape. -/
def hexDigit (b : UInt8) : Option Nat :=
  if 0x30 ≤ b ∧ b ≤ 0x39 then some (b.toNat - 0x30)
  else if 0x41 ≤ b ∧ b ≤ 0x46 then some (b.toNat - 0x37)
  else if 0x61 ≤ b ∧ b ≤ 0x66 then some (b.toNat - 0x57)
  else none

def hexQuad : Reader Nat
  | a :: b :: c :: d :: s =>
    match hexDigit a, hexDigit b, hexDigit c, hexDigit d with
    | some a, some b, some c, some d => .ok (((a * 16 + b) * 16 + c) * 16 + d, s)
    | _, _, _, _ => .error .malformed
  | _ => .error .truncated

/-- The second half of a surrogate pair, of which the first is given. -/
def lowSurrogate (high : Nat) : Reader Char
  | [] => .error .truncated
  | b :: s =>
    if b ≠ Mark.backslash then .error .malformed
    else match s with
      | [] => .error .truncated
      | b :: s =>
        if b ≠ 0x75 then .error .malformed
        else match hexQuad s with
          | .error e => .error e
          | .ok (low, s) =>
            if 0xDC00 ≤ low ∧ low ≤ 0xDFFF then
              .ok (Char.ofNat ((high - 0xD800) * 0x400 + (low - 0xDC00) + 0x10000), s)
            else .error .malformed

/-- The character of an escape by number; surrogates come in pairs. -/
def unicodeEscape (s : Bytes) : Except Fault (Char × Bytes) :=
  match hexQuad s with
  | .error e => .error e
  | .ok (n, s) =>
    if 0xDC00 ≤ n ∧ n ≤ 0xDFFF then .error .malformed
    else if 0xD800 ≤ n ∧ n ≤ 0xDBFF then lowSurrogate n s
    else .ok (Char.ofNat n, s)

/-- The character that a letter after a backslash stands for. -/
def shortEscape (b : UInt8) : Option UInt8 :=
  if b = Mark.quote ∨ b = Mark.backslash ∨ b = 0x2F then some b
  else if b = 0x62 then some 0x08
  else if b = 0x66 then some 0x0C
  else if b = 0x6E then some 0x0A
  else if b = 0x72 then some 0x0D
  else if b = 0x74 then some 0x09
  else none

/-- What a backslash introduces, as bytes. -/
def escape : Reader Bytes
  | [] => .error .truncated
  | b :: s =>
    match shortEscape b with
    | some c => .ok ([c], s)
    | none =>
      if b ≠ 0x75 then .error .malformed
      else match unicodeEscape s with
        | .error e => .error e
        | .ok (c, s) => .ok (String.utf8EncodeChar c, s)

/-- The bytes of a string up to its closing quote, after those already read, latest first. -/
def stringBytes : Nat → Bytes → Reader Bytes
  | 0, _, _ => .error .truncated
  | _ + 1, _, [] => .error .truncated
  | fuel + 1, done, b :: s =>
    if b = Mark.quote then .ok (done.reverse, s)
    else if b = Mark.backslash then
      match escape s with
      | .error e => .error e
      | .ok (c, s) => stringBytes fuel (c.reverse ++ done) s
    else if b < 0x20 then .error .malformed
    else stringBytes fuel (b :: done) s

/-- A string after its opening quote. That its bytes spell a text is checked at its end. -/
def stringBody (s : Bytes) : Except Fault (String × Bytes) :=
  match stringBytes (s.length + 1) [] s with
  | .error e => .error e
  | .ok (bytes, s) =>
    match Text.decode bytes with
    | none => .error .malformed
    | some t => .ok (t, s)

/-- Blanks and the opening quote of a key. A key is a string: any other value in its place is
malformed, whatever its kind. -/
def openKey (s : Bytes) : Except Fault Bytes :=
  match skipBlank s with
  | [] => .error .truncated
  | b :: s => if b = Mark.quote then .ok s else .error .malformed

end PluginSlot.Json
