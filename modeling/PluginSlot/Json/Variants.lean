import PluginSlot.Json.Fields
/-!
Sums. A variant without fields is its name, or an object with its name and null; a variant with
fields is an object with its name and the record of the fields.
-/
namespace PluginSlot.Json

/-- One variant of a type, with the test whether a value is of it. -/
inductive Variant (α : Type) : Type 1 where
  | plain (name : String) (value : α) (is : α → Bool)
  | record {τ π : Type} (name : String) (fields : Fields τ π) (make : τ → α) (parts : α → Option τ)

namespace Variant
variable {α : Type}

def name : Variant α → String
  | plain name _ _ => name
  | record name _ _ _ => name

def readNull : Reader Unit := fun s =>
  match skipBlank s with
  | [] => .error .truncated
  | b :: rest =>
    if b = 0x6E then (word rull rest).map fun s => ((), s)
    else .error (shapeFault (b :: rest))

def readBody : Variant α → Reader α
  | plain _ value _, s => (readNull s).map fun (_, s) => (value, s)
  | record _ fields make _, s => (fields.read s).map fun (t, s) => (make t, s)

/-- The value that a bare name stands for. -/
def bare : Variant α → Option α
  | plain _ value _ => some value
  | record _ _ _ _ => none

def write? : Variant α → α → Option (List Char)
  | plain name _ is, a => if is a then some (quoted name) else none
  | record name fields _ parts, a =>
    (parts a).map fun t => '\x7b' :: quoted name ++ ':' :: fields.write t ++ ['\x7d']

end Variant

variable {α : Type}

def variantNamed (vs : List (Variant α)) (name : String) : Option (Variant α) :=
  vs.find? fun v => v.name = name

def closeVariant (s : Bytes) : Except Fault Bytes :=
  match skipBlank s with
  | [] => .error .truncated
  | b :: s => if b = Mark.closeObject then .ok s else .error .malformed

/-- The name of a variant, where it is the key of an object. -/
def readName : Reader String := fun s => (openKey s).bind stringBody

/-- A variant given as an object, after the opening bracket. -/
def readTagged (vs : List (Variant α)) : Reader α := fun s =>
  match readName s with
  | .error e => .error e
  | .ok (name, s) =>
    match variantNamed vs name with
    | none => .error .mismatch
    | some v =>
      match colon s with
      | .error e => .error e
      | .ok s =>
        match v.readBody s with
        | .error e => .error e
        | .ok (a, s) => (closeVariant s).map fun s => (a, s)

/-- A variant given by its bare name, after the opening quote. -/
def readBare (vs : List (Variant α)) : Reader α := fun s =>
  match stringBody s with
  | .error e => .error e
  | .ok (name, s) =>
    match (variantNamed vs name).bind Variant.bare with
    | none => .error .mismatch
    | some a => .ok (a, s)

def readVariant (vs : List (Variant α)) : Reader α := fun s =>
  match skipBlank s with
  | [] => .error .truncated
  | b :: rest =>
    if b = Mark.quote then readBare vs rest
    else if b = Mark.openObject then readTagged vs rest
    else .error .malformed

def variants (vs : List (Variant α)) : Codec α where
  read := readVariant vs
  write a := (vs.findSome? (·.write? a)).getD []

end PluginSlot.Json
