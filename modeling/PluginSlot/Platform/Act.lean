import PluginSlot.Platform.Call
/-!
Computations that call the platform. They run on a machine: the state of the client, the words it
shares with the plugin and the kernel, and the state of the platform. Whoever answers a call may
change all of it, because the plugin, the kernel and other clients act meanwhile; a platform of its
own changes nothing but its own state.
-/
namespace PluginSlot.Platform
open Kernel Handshake

structure Machine (κ σ : Type) where
  client : κ
  words : Words
  /-- The status word shared with the kernel. -/
  status : UInt32
  platform : σ

/-- How calls are answered. -/
abbrev Handler (κ σ : Type) := (c : Call) → Machine κ σ → c.Answer × Machine κ σ

def Act (κ σ α : Type) := Handler κ σ → Machine κ σ → α × Machine κ σ

variable {κ σ α β : Type}

def handler (p : Platform σ) : Handler κ σ := fun c m =>
  let (a, s) := p.answer c m.platform
  (a, { m with platform := s })

namespace Act

instance : Monad (Act κ σ) where
  pure a := fun _ m => (a, m)
  bind x f := fun h m =>
    let (a, m) := x h m
    f a h m

theorem pure_run (a : α) (h : Handler κ σ) (m : Machine κ σ) : (pure a : Act κ σ α) h m = (a, m) :=
  rfl

theorem bind_run (x : Act κ σ α) (f : α → Act κ σ β) (h : Handler κ σ) (m : Machine κ σ) :
    (x >>= f) h m = f (x h m).1 h (x h m).2 := rfl

def call (c : Call) : Act κ σ c.Answer := fun h m => h c m

def client : Act κ σ κ := fun _ m => (m.client, m)

def modifyClient (f : κ → κ) : Act κ σ Unit := fun _ m => ((), { m with client := f m.client })

def words : Act κ σ Words := fun _ m => (m.words, m)

def setWord (word : SharedWord) (value : Int32) : Act κ σ Unit := fun _ m =>
  ((), { m with words := m.words.set word value })

def status : Act κ σ UInt32 := fun _ m => (m.status, m)

def setStatus (value : UInt32) : Act κ σ Unit := fun h m =>
  let (_, m) := h (.writeStatus value) m
  ((), { m with status := value })

def debug (line : String) : Act κ σ Unit := call (.debug line)

end Act
end PluginSlot.Platform
