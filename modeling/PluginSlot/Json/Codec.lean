import PluginSlot.Json.Skip
/-!
Codecs: how a type is read from JSON and written as JSON. A reader skips blanks before its value;
a writer puts none in.
-/
namespace PluginSlot.Json

structure Codec (α : Type) where
  read : Reader α
  write : α → List Char

namespace Codec
variable {α β : Type}

def text (c : Codec α) (a : α) : String := String.ofList (c.write a)

/-- Read a whole byte sequence; only blanks may follow the value. -/
def decode (c : Codec α) (s : Bytes) : Except Fault α :=
  match c.read s with
  | .error e => .error e
  | .ok (a, s) => if (skipBlank s).isEmpty then .ok a else .error .malformed

/-- The same JSON for another type. -/
def map (c : Codec α) (f : α → β) (g : β → α) : Codec β where
  read s := (c.read s).map fun (a, s) => (f a, s)
  write b := c.write (g b)

end Codec

def readBool : Reader Bool := fun s =>
  match skipBlank s with
  | [] => .error .truncated
  | b :: rest =>
    if b = 0x74 then (word rue rest).map fun s => (true, s)
    else if b = 0x66 then (word alse rest).map fun s => (false, s)
    else .error (shapeFault (b :: rest))

def bool : Codec Bool where
  read := readBool
  write b := if b then "true".toList else "false".toList

def readNatural (limit : Nat) : Reader Nat := fun s =>
  match skipBlank s with
  | [] => .error .truncated
  | b :: rest =>
    if b = Mark.minus || isDigit b then
      match number (b :: rest) with
      | .error e => .error e
      | .ok (.natural n, s) => if n ≤ limit then .ok (n, s) else .error .mismatch
      | .ok (_, _) => .error .mismatch
    else .error (shapeFault (b :: rest))

/-- Whole numbers from zero to a limit of at most 64 bits. -/
def natural (limit : Nat) : Codec Nat where
  read := readNatural limit
  write n := Nat.toDigits 10 n

def word64 : Codec UInt64 := (natural (UInt64.size - 1)).map .ofNat UInt64.toNat
def word32 : Codec UInt32 := (natural (UInt32.size - 1)).map .ofNat UInt32.toNat
def word16 : Codec UInt16 := (natural (UInt16.size - 1)).map .ofNat UInt16.toNat

def readString : Reader String := fun s =>
  match skipBlank s with
  | [] => .error .truncated
  | b :: rest =>
    if b = Mark.quote then stringBody rest else .error (shapeFault (b :: rest))

/-- Two lower-case hexadecimal digits. -/
def hexPair (n : Nat) : List Char := [Nat.digitChar (n / 16), Nat.digitChar (n % 16)]

/-- A character within a string: only quote, backslash and control characters are escaped. -/
def escaped (c : Char) : List Char :=
  if c = '\x22' then ['\\', '\x22']
  else if c = '\\' then ['\\', '\\']
  else if c = '\x08' then ['\\', 'b']
  else if c = '\x09' then ['\\', 't']
  else if c = '\x0a' then ['\\', 'n']
  else if c = '\x0c' then ['\\', 'f']
  else if c = '\x0d' then ['\\', 'r']
  else if c.toNat < 0x20 then ['\\', 'u', '0', '0'] ++ hexPair c.toNat
  else [c]

def quoted (s : String) : List Char := '\x22' :: s.toList.flatMap escaped ++ ['\x22']

def string : Codec String := ⟨readString, quoted⟩

/-- What may stand between the elements of an array: the next element, or its end. -/
inductive Separator where
  | element (s : Bytes)
  | close (s : Bytes)

/-- Go to the next element of an array, or to its closing bracket. -/
def nextElement (first : Bool) (s : Bytes) : Except Fault Separator :=
  match skipBlank s with
  | [] => .error .truncated
  | b :: rest =>
    if b = Mark.closeArray then .ok (.close (b :: rest))
    else if first then .ok (.element (b :: rest))
    else if b = Mark.comma then
      match skipBlank rest with
      | [] => .error .truncated
      | c :: after =>
        if c = Mark.closeArray then .error .malformed else .ok (.element (c :: after))
    else .error .malformed

/-- The end of an array that should have no more elements. -/
def endArray (s : Bytes) : Except Fault Bytes :=
  match skipBlank s with
  | [] => .error .truncated
  | b :: rest => if b = Mark.closeArray then .ok rest else .error .malformed

variable {α : Type}

def readElements (read : Reader α) : Nat → Bool → Reader (List α)
  | 0, _, _ => .error .truncated
  | fuel + 1, first, s =>
    match nextElement first s with
    | .error e => .error e
    | .ok (.close s) => (endArray s).map fun s => ([], s)
    | .ok (.element s) =>
      match read s with
      | .error e => .error e
      | .ok (a, s) => (readElements read fuel false s).map fun (rest, s) => (a :: rest, s)

def readList (read : Reader α) : Reader (List α) := fun s =>
  match skipBlank s with
  | [] => .error .truncated
  | b :: rest =>
    if b = Mark.openArray then readElements read (rest.length + 1) true rest
    else .error (shapeFault (b :: rest))

def commaSeparated : List (List Char) → List Char
  | [] => []
  | [t] => t
  | t :: rest => t ++ ',' :: commaSeparated rest

def list (c : Codec α) : Codec (List α) where
  read := readList c.read
  write l := '[' :: commaSeparated (l.map c.write) ++ [']']

end PluginSlot.Json
