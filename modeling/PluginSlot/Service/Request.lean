import PluginSlot.Loader.State
import PluginSlot.Wire.Buffer
import PluginSlot.Wire.Command
/-!
Requests and responses of the loader service, and how a request's parameters are read.
-/
namespace PluginSlot.Service
open Kernel (Handle)
open Wire Loader

/-- A translated parameter; it takes two words. -/
inductive Descriptor where
  | buffer (bytes : List UInt8)
  | handle (h : Handle)
deriving DecidableEq, Repr

structure Request where
  header : UInt32
  params : List UInt32
  descriptors : List Descriptor
deriving DecidableEq, Repr

structure Response where
  header : UInt32
  result : ResultCode
  /-- Words after the result. -/
  values : List UInt32
  descriptors : List Descriptor
deriving DecidableEq, Repr

namespace Request

/-- The request has the header of the command and just the parameters that it announces. -/
def hasShape (r : Request) (c : Command) : Bool :=
  r.header = c.requestHeader && r.params.length = c.normalWords.toNat &&
    r.descriptors.length * 2 = c.translateWords.toNat

/-- A plain word; a request of the right shape has all that are asked for. -/
def param (r : Request) (i : Nat) : UInt32 := r.params.getD i 0

def buffer (r : Request) (i : Nat) : Except Error (List UInt8) :=
  match r.descriptors[i]? with
  | some (.buffer bytes) => .ok bytes
  | _ => .error .malformedRequest

def handle (r : Request) (i : Nat) : Except Error Handle :=
  match r.descriptors[i]? with
  | some (.handle h) => .ok h
  | _ => .error .malformedRequest

def orMalformed {α : Type} : Option α → Except Error α
  | some a => .ok a
  | none => .error .malformedRequest

def text (r : Request) (i : Nat) : Except Error String :=
  (r.buffer i).bind fun bytes => orMalformed (cString bytes)

def texts (r : Request) (i : Nat) : Except Error (List String) :=
  (r.buffer i).bind fun bytes => orMalformed (stringList bytes)

/-- The words in a buffer, of which there may not be too many. -/
def words (r : Request) (i : Nat) : Except Error (List UInt32) :=
  (r.buffer i).bind fun bytes =>
    match words? bytes with
    | none => .error .malformedRequest
    | some ws => if ws.length > maxConfigWords then .error .tooLarge else .ok ws

def wordIn (r : Request) (i : Nat) : Except Error UInt32 :=
  (r.buffer i).bind fun bytes =>
    match bytes with
    | [a, b, c, d] => .ok (littleEndian a b c d)
    | _ => .error .malformedRequest

end Request

namespace Response

def status (id : UInt16) (result : ResultCode) : Response := ⟨makeHeader id 1 0, result, [], []⟩

def ok (c : Command) : Response := status c.id Code.success

def withValue (c : Command) (value : UInt32) : Response :=
  ⟨makeHeader c.id 2 0, Code.success, [value], []⟩

def withDescriptor (c : Command) (d : Descriptor) : Response :=
  ⟨makeHeader c.id 1 2, Code.success, [], [d]⟩

/-- A malformed request is answered without a command id. -/
def failure (c : Command) : Error → Response
  | .malformedRequest => status 0 Error.malformedRequest.code
  | e => status c.id e.code

end Response
end PluginSlot.Service
