import PluginSlot.Json.Codec
/-!
Records. A record is an object of its fields, in any order, or an array of them, in the order they
are declared. Members of other names are skipped; a field given twice, or missing without a value
to take its place, is a fault.
-/
namespace PluginSlot.Json

/-- The fields of a record. Its values are the components of one product, and those met so far, in
any order, the components of another. -/
inductive Fields : Type → Type → Type 1 where
  | nil : Fields Unit Unit
  | cons {α β π : Type} (name : String) (codec : Codec α) (missing : Option α)
    (rest : Fields β π) : Fields (α × β) (Option α × π)

namespace Fields
variable {α β τ π : Type}

def required (name : String) (codec : Codec α) (rest : Fields β π) :
    Fields (α × β) (Option α × π) :=
  cons name codec none rest

def optional (name : String) (codec : Codec α) (missing : α) (rest : Fields β π) :
    Fields (α × β) (Option α × π) :=
  cons name codec (some missing) rest

/-- No value met yet. -/
def nothing {τ π : Type} : Fields τ π → π
  | nil => ()
  | cons _ _ _ rest => (none, rest.nothing)

/-- The values, with those that are missing filled in. -/
def complete {τ π : Type} : Fields τ π → π → Option τ
  | nil, _ => some ()
  | cons _ _ missing rest, (value, others) =>
    match value.or missing, rest.complete others with
    | some a, some b => some (a, b)
    | _, _ => none

/-- How to read the value of a key, unless no field has that name. -/
def member {τ π : Type} : Fields τ π → String → π → Option (Reader π)
  | nil, _, _ => none
  | cons name codec _ rest, key, (value, others) =>
    if key = name then
      some fun s =>
        match value, colon s with
        | some _, _ => .error .mismatch
        | none, .error e => .error e
        | none, .ok s => (codec.read s).map fun (a, s) => ((some a, others), s)
    else (rest.member key others).map fun read s =>
      (read s).map fun (others, s) => ((value, others), s)

/-- A member after the opening quote of its key. -/
def readMember (f : Fields τ π) (p : π) : Reader π := fun s =>
  match stringBody s with
  | .error e => .error e
  | .ok (key, s) =>
    match f.member key p with
    | some read => read s
    | none =>
      match colon s with
      | .error e => .error e
      | .ok s => (skipValue s).map fun s => (p, s)

def readMembers (f : Fields τ π) : Nat → Bool → π → Reader π
  | 0, _, _, _ => .error .truncated
  | fuel + 1, first, p, s =>
    match skipBlank s with
    | [] => .error .truncated
    | b :: rest =>
      if b = Mark.closeObject then .ok (p, rest)
      else if !first && b ≠ Mark.comma then .error .malformed
      else
        match openKey (if first then b :: rest else rest) with
        | .error e => .error e
        | .ok s =>
          match f.readMember p s with
          | .error e => .error e
          | .ok (p, s) => readMembers f fuel false p s

/-- The fields as elements of an array, after its opening bracket. -/
def readElements {τ π : Type} : Fields τ π → Bool → Reader τ
  | nil, _, s => (endArray s).map fun s => ((), s)
  | cons _ codec missing rest, first, s =>
    match nextElement first s with
    | .error e => .error e
    | .ok (.close s) =>
      match missing with
      | none => .error .mismatch
      | some a => (rest.readElements first s).map fun (b, s) => ((a, b), s)
    | .ok (.element s) =>
      match codec.read s with
      | .error e => .error e
      | .ok (a, s) => (rest.readElements false s).map fun (b, s) => ((a, b), s)

def read (f : Fields τ π) : Reader τ := fun s =>
  match skipBlank s with
  | [] => .error .truncated
  | b :: rest =>
    if b = Mark.openArray then f.readElements true rest
    else if b = Mark.openObject then
      match f.readMembers (rest.length + 1) true f.nothing rest with
      | .error e => .error e
      | .ok (p, s) =>
        match f.complete p with
        | none => .error .mismatch
        | some t => .ok (t, s)
    else .error (shapeFault (b :: rest))

/-- The members of an object, in order. -/
def members {τ π : Type} : Fields τ π → τ → List (List Char)
  | nil, _ => []
  | cons name codec _ rest, (a, b) =>
    (quoted name ++ ':' :: codec.write a) :: rest.members b

def write (f : Fields τ π) (t : τ) : List Char :=
  '\x7b' :: commaSeparated (f.members t) ++ ['\x7d']

/-- A record type that is the product of its fields. -/
def codec (f : Fields τ π) (make : τ → α) (parts : α → τ) : Codec α :=
  Codec.map ⟨f.read, f.write⟩ make parts

end Fields
end PluginSlot.Json
