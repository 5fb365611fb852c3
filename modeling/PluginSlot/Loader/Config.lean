import PluginSlot.Handshake.Words
/-!
What the loader is told when it starts.
-/
namespace PluginSlot.Loader

structure Config where
  /-- How long the plugin may take to acknowledge an event, in milliseconds. -/
  handshakeTimeout : UInt64
  journalCapacity : UInt64
  /-- Where plugins are looked for. -/
  pluginRoot : String
  defaultSwapFilename : String
  /-- Whether a load is shown by the indicator. -/
  flashIndicator : Bool
deriving DecidableEq, Repr

namespace Config

def default : Config where
  handshakeTimeout := Handshake.replyTimeout / 1000000
  journalCapacity := 256
  pluginRoot := "/luma/plugins"
  defaultSwapFilename := "/luma/plugins/.swap"
  flashIndicator := true

instance : Inhabited Config := ⟨default⟩

/-- The timeout in nanoseconds; one that is too long is as long as can be. -/
def timeoutNanos (c : Config) : UInt64 :=
  .ofNat (min (c.handshakeTimeout.toNat * 1000000) (UInt64.size - 1))

theorem toNat_timeoutNanos (c : Config) :
    c.timeoutNanos.toNat = min (c.handshakeTimeout.toNat * 1000000) (UInt64.size - 1) := by
  have h : min (c.handshakeTimeout.toNat * 1000000) (UInt64.size - 1) < UInt64.size := by
    have : UInt64.size = 18446744073709551616 := rfl
    omega
  rw [timeoutNanos, UInt64.toNat_ofNat', Nat.mod_eq_of_lt h]

end Config
end PluginSlot.Loader
