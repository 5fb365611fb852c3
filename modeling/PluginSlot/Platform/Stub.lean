import PluginSlot.Platform.Call
/-!
The smallest platform: no kernel behind it, nothing blocks, and everything but the menu and the
swap files works.
-/
namespace PluginSlot.Platform
open Kernel

structure Stub where
  clock : UInt64
  nextHandle : UInt32
  mapped : Nat
  /-- Debug lines, latest first. -/
  lines : List String
deriving DecidableEq, Repr

namespace Stub

def initial : Stub := ⟨0, 0x100, 0, []⟩

def freshHandle (s : Stub) : Handle × Stub :=
  (⟨s.nextHandle⟩, { s with nextHandle := s.nextHandle + 1 })

/-- Every program has a title of its own. -/
def titleOf (target : Handle) : UInt64 := 0x0004000000000000 ||| target.val.toUInt64

def answer : (c : Call) → Stub → c.Answer × Stub
  | .schedule _ _, s => (.ok .none, s)
  | .close _, s => (.ok (), s)
  | .titleId target, s => (.ok (titleOf target), s)
  | .createArbiter, s | .createLifecycleEvent, s =>
    let (h, s) := s.freshHandle
    (.ok h, s)
  | .enabledAtBoot, s => (false, s)
  | .writeStatus _, s => ((), s)
  | .signal _ _ _, s => (.ok (), s)
  | .wait _ _ value bound timeout, s =>
    (.atOnce value bound .timeout,
      if bound ≤ value then s else { s with clock := s.clock + timeout })
  | .inject _ _ _, s => (.ok (List.replicate 0x1000 0), s)
  | .map _ length, s => (.ok (), { s with mapped := length })
  | .unmap _ _, s => (.ok (), { s with mapped := 0 })
  | .menu _, s => (.error .notSupported, s)
  | .now, s => (s.clock, s)
  | .debug line, s => ((), { s with lines := line :: s.lines })
  | .invalidateCache, s | .flash, s | .message _ _, s | .showError _ _ _, s | .saveSettings, s
  | .publish _, s => ((), s)
  | .writeSwap _ _ _, s => (.error .notSupported, s)
  | .readSwap _ _ _, s => (.error .notSupported, s)

def platform : Platform Stub := ⟨answer⟩

end Stub
end PluginSlot.Platform
