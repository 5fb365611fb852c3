import PluginSlot.Json.Scan
/-!
JSON numbers. Only whole numbers of at most 64 bits are kept; any other is read over, and refused
only if no double could hold it.
-/
namespace PluginSlot.Json

inductive Number where
  | natural (n : Nat)
  /-- The number -n, for n from 1 to 2^63. -/
  | negative (n : Nat)
  /-- A number with a fraction or an exponent, or too long for 64 bits. -/
  | real
deriving DecidableEq, Repr

def isDigit (b : UInt8) : Bool := 0x30 ≤ b ∧ b ≤ 0x39

def digitValue (b : UInt8) : Nat := b.toNat - 0x30

def limit64 : Nat := UInt64.size - 1

/-- Append digits to a number while it has at most 64 bits; also the count of digits left out. -/
def accumulate (n : Nat) : Bytes → Nat × Nat
  | [] => (n, 0)
  | b :: rest =>
    if n * 10 + digitValue b > limit64 then (n, rest.length + 1)
    else accumulate (n * 10 + digitValue b) rest

/-- The number n · 10^e is beyond every double. -/
def isHuge (n : Nat) (e : Int) : Bool :=
  n ≠ 0 && e ≥ 0 &&
    (e > 308 || ((UInt64.ofNat n).toFloat * Float.ofScientific 1 false e.toNat).isInf)

def realPart (n : Nat) (e : Int) (s : Bytes) : Except Fault (Number × Bytes) :=
  if isHuge n e then .error .malformed else .ok (.real, s)

/-- An exponent with more digits than this says whether the number is huge or vanishes. -/
def exponentLimit : Nat := 0x7FFFFFFF

def exponentDigits (n : Nat) (e : Int) (negative : Bool) (s : Bytes) :
    Except Fault (Number × Bytes) :=
  match s with
  | [] => .error .truncated
  | b :: _ =>
    if !isDigit b then .error .malformed
    else
      let value := (s.takeWhile isDigit).foldl (fun v b => v * 10 + digitValue b) 0
      let rest := s.dropWhile isDigit
      if value > exponentLimit then
        if n ≠ 0 ∧ !negative then .error .malformed else .ok (.real, rest)
      else realPart n (if negative then e - value else e + value) rest

/-- After the letter that begins an exponent. -/
def exponent (n : Nat) (e : Int) (s : Bytes) : Except Fault (Number × Bytes) :=
  match s with
  | [] => .error .truncated
  | b :: rest =>
    if b = Mark.plus then exponentDigits n e false rest
    else if b = Mark.minus then exponentDigits n e true rest
    else exponentDigits n e false s

def isExponentMark (b : UInt8) : Bool := b = 0x65 ∨ b = 0x45

/-- A possible exponent of a number that is no integer any more. -/
def afterFraction (n : Nat) (e : Int) (s : Bytes) : Except Fault (Number × Bytes) :=
  match s with
  | [] => realPart n e s
  | b :: rest => if isExponentMark b then exponent n e rest else realPart n e s

/-- After the decimal point. -/
def fraction (n : Nat) (e : Int) (s : Bytes) : Except Fault (Number × Bytes) :=
  match s with
  | [] => .error .truncated
  | b :: _ =>
    if !isDigit b then .error .malformed
    else
      let digits := s.takeWhile isDigit
      let (m, dropped) := accumulate n digits
      afterFraction m (e - (digits.length - dropped : Nat)) (s.dropWhile isDigit)

def wholeNumber (negative : Bool) (n : Nat) : Number :=
  if !negative then .natural n
  else if n = 0 ∨ n > 0x8000000000000000 then .real
  else .negative n

/-- After the whole part, of which some digits may have been left out. -/
def afterWhole (negative : Bool) (n dropped : Nat) (s : Bytes) : Except Fault (Number × Bytes) :=
  match s with
  | [] => if dropped = 0 then .ok (wholeNumber negative n, s) else realPart n dropped s
  | b :: rest =>
    if b = Mark.point then fraction n dropped rest
    else if isExponentMark b then exponent n dropped rest
    else if dropped = 0 then .ok (wholeNumber negative n, s)
    else realPart n dropped s

/-- A number after its sign. It has no leading zeros. -/
def unsignedNumber (negative : Bool) (s : Bytes) : Except Fault (Number × Bytes) :=
  match s with
  | [] => .error .truncated
  | b :: rest =>
    if !isDigit b then .error .malformed
    else if b = 0x30 then
      match rest with
      | [] => afterWhole negative 0 0 rest
      | c :: _ => if isDigit c then .error .malformed else afterWhole negative 0 0 rest
    else
      let (n, dropped) := accumulate 0 (s.takeWhile isDigit)
      afterWhole negative n dropped (s.dropWhile isDigit)

/-- A number, from its first byte. -/
def number (s : Bytes) : Except Fault (Number × Bytes) :=
  match s with
  | [] => .error .truncated
  | b :: rest => if b = Mark.minus then unsignedNumber true rest else unsignedNumber false s

/-- The fault of a value that has another shape than asked for: its own, if it is no JSON value
itself. -/
def shapeFault (s : Bytes) : Fault :=
  let after {α : Type} (r : Except Fault α) : Fault :=
    match r with
    | .error e => e
    | .ok _ => .mismatch
  match s with
  | [] => .malformed
  | b :: rest =>
    if b = 0x6E then after (word rull rest)
    else if b = 0x74 then after (word rue rest)
    else if b = 0x66 then after (word alse rest)
    else if b = Mark.minus || isDigit b then after (number s)
    else if b = Mark.quote then after (stringBody rest)
    else if b = Mark.openArray ∨ b = Mark.openObject then .mismatch
    else .malformed

end PluginSlot.Json
