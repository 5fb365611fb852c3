import PluginSlot.Handshake.Words
import PluginSlot.Kernel.Control
import PluginSlot.Platform.Error
/-!
The calls that the loader makes on its platform, each with the type of its answer. A platform is
anything that answers them; whatever it does with a call, it can fail only where the answer's type
says so.
-/
namespace PluginSlot.Platform
open Kernel Handshake

structure MenuEntry where
  label : String
  hint : String
  /-- Toggled by the user. -/
  state : UInt8
deriving DecidableEq, Repr

structure Menu where
  title : String
  entries : List MenuEntry
deriving DecidableEq, Repr

inductive Call where
  /-- Hold or release the plugin threads of a process. -/
  | schedule (target : Handle) (mode : ScheduleMode)
  | close (h : Handle)
  | titleId (target : Handle)
  | createArbiter
  | createLifecycleEvent
  /-- The system setting that enables the loader. -/
  | enabledAtBoot
  /-- The status word was overwritten. -/
  | writeStatus (value : UInt32)
  /-- Wake everybody who waits on a word. -/
  | signal (arbiter : Handle) (word : SharedWord) (value : Int32)
  /-- Wait while a word is below a bound. -/
  | wait (arbiter : Handle) (word : SharedWord) (value bound : Int32) (timeout : UInt64)
  /-- Start the plugin of a path in a process, and give the contents of its memory. -/
  | inject (target : Handle) (path : String) (config : List UInt32)
  | map (target : Handle) (length : Nat)
  | unmap (target : Handle) (length : Nat)
  | invalidateCache
  | flash
  | menu (m : Menu)
  | message (title body : String)
  | showError (title : String) (code : UInt32) (body : String)
  | saveSettings
  | publish (id : UInt32)
  | now
  | debug (line : String)
  | writeSwap (filename : String) (address : UInt32) (data : List UInt8)
  | readSwap (filename : String) (address : UInt32) (length : Nat)
deriving DecidableEq, Repr

/-- How a wait on a word ended, when the word held a given value. -/
inductive WaitOutcome (bound value : Int32) where
  | reached (h : bound ≤ value)
  | failed (e : Error)

/-- A wait also tells what the word held when it ended. -/
structure WaitAnswer (bound : Int32) where
  value : Int32
  outcome : WaitOutcome bound value

abbrev Call.Answer : Call → Type
  | schedule _ _ => Except Error ScheduleReport
  | close _ => Except Error Unit
  | titleId _ => Except Error UInt64
  | createArbiter => Except Error Handle
  | createLifecycleEvent => Except Error Handle
  | enabledAtBoot => Bool
  | writeStatus _ => Unit
  | signal _ _ _ => Except Error Unit
  | wait _ _ _ bound _ => WaitAnswer bound
  | inject _ _ _ => Except Error (List UInt8)
  | map _ _ => Except Error Unit
  | unmap _ _ => Except Error Unit
  | invalidateCache => Unit
  | flash => Unit
  | menu _ => Except Error Menu
  | message _ _ => Unit
  | showError _ _ _ => Unit
  | saveSettings => Unit
  | publish _ => Unit
  | now => UInt64
  | debug _ => Unit
  | writeSwap _ _ _ => Except Error Unit
  | readSwap _ _ _ => Except Error (List UInt8)

/-- The answer of a wait that does not block: it succeeds if the word is there already. -/
def WaitAnswer.atOnce (value bound : Int32) (e : Error) : WaitAnswer bound :=
  if h : bound ≤ value then ⟨value, .reached h⟩ else ⟨value, .failed e⟩

end PluginSlot.Platform

namespace PluginSlot

/-- A platform with state: how it answers each call. -/
structure Platform (σ : Type) where
  answer : (c : Platform.Call) → σ → c.Answer × σ

end PluginSlot
