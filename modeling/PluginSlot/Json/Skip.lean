import PluginSlot.Json.Number
/-!
Reading over a value that nobody asked for. Only the grammar is checked: nesting may be as deep as
it likes, numbers as large, and strings need not spell a text.
-/
namespace PluginSlot.Json

def skipEscape : Bytes → Except Fault Bytes
  | [] => .error .truncated
  | b :: s =>
    if (shortEscape b).isSome then .ok s
    else if b = 0x75 then (hexQuad s).map (·.2)
    else .error .malformed

def skipStringBytes : Nat → Bytes → Except Fault Bytes
  | 0, _ => .error .truncated
  | _ + 1, [] => .error .truncated
  | fuel + 1, b :: s =>
    if b = Mark.quote then .ok s
    else if b = Mark.backslash then
      match skipEscape s with
      | .error e => .error e
      | .ok s => skipStringBytes fuel s
    else if b < 0x20 then .error .malformed
    else skipStringBytes fuel s

/-- A string after its opening quote. -/
def skipString (s : Bytes) : Except Fault Bytes := skipStringBytes (s.length + 1) s

def skipDigits : Bytes → Except Fault Bytes
  | [] => .error .malformed
  | b :: s => if isDigit b then .ok (s.dropWhile isDigit) else .error .malformed

def skipExponent (s : Bytes) : Except Fault Bytes :=
  match s with
  | [] => .ok s
  | b :: rest =>
    if !isExponentMark b then .ok s
    else match rest with
      | [] => .error .malformed
      | c :: after => skipDigits (if c = Mark.plus ∨ c = Mark.minus then after else rest)

def skipFraction (s : Bytes) : Except Fault Bytes :=
  match s with
  | [] => .ok s
  | b :: rest =>
    if b = Mark.point then (skipDigits rest).bind skipExponent else skipExponent s

/-- A number after its sign. -/
def skipNumber : Bytes → Except Fault Bytes
  | [] => .error .malformed
  | b :: s =>
    if !isDigit b then .error .malformed
    else if b = 0x30 then
      match s with
      | [] => .ok s
      | c :: _ => if isDigit c then .error .malformed else skipFraction s
    else skipFraction (s.dropWhile isDigit)

/-- A value without parts, from its first byte and what follows it. -/
def skipScalar (b : UInt8) (s : Bytes) : Except Fault Bytes :=
  if b = 0x6E then word rull s
  else if b = 0x74 then word rue s
  else if b = 0x66 then word alse s
  else if b = Mark.minus then skipNumber s
  else if isDigit b then skipNumber (b :: s)
  else if b = Mark.quote then skipString s
  else .error .malformed

inductive Bracket where
  | array
  | object
deriving DecidableEq, Repr

def Bracket.close : Bracket → UInt8
  | array => Mark.closeArray
  | object => Mark.closeObject

/-- The key of a member and its colon. -/
def skipKey (s : Bytes) : Except Fault Bytes := do colon (← skipString (← openKey s))

/-- Where the reader stands: before a value, or within brackets before an element or their end. -/
inductive SkipState where
  | value
  | first
  | next
deriving DecidableEq, Repr

/-- Read on until every bracket is closed. -/
def skipFrom : Nat → SkipState → List Bracket → Bytes → Except Fault Bytes
  | 0, _, _, _ => .error .truncated
  | fuel + 1, .value, stack, s =>
    match skipBlank s with
    | [] => .error .truncated
    | b :: s =>
      if b = Mark.openArray then skipFrom fuel .first (.array :: stack) s
      else if b = Mark.openObject then skipFrom fuel .first (.object :: stack) s
      else match skipScalar b s with
        | .error e => .error e
        | .ok s => if stack.isEmpty then .ok s else skipFrom fuel .next stack s
  | _ + 1, _, [], s => .ok s
  | fuel + 1, state, bracket :: stack, s =>
    match skipBlank s with
    | [] => .error .truncated
    | b :: rest =>
      if b = bracket.close then
        if stack.isEmpty then .ok rest else skipFrom fuel .next stack rest
      else if state = .next ∧ b ≠ Mark.comma then .error .malformed
      else
        let rest := if state = .next then rest else s
        match (if bracket = .object then skipKey rest else .ok rest) with
        | .error e => .error e
        | .ok rest => skipFrom fuel .value (bracket :: stack) rest

def skipValue (s : Bytes) : Except Fault Bytes := skipFrom (2 * s.length + 2) .value [] s

end PluginSlot.Json
