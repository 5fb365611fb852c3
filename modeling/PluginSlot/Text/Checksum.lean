/-!
The 32-bit FNV-1a checksum of a byte sequence.
-/
namespace PluginSlot.Text

def checksum (bytes : List UInt8) : UInt32 :=
  bytes.foldl (fun sum b => (sum ^^^ b.toUInt32) * 0x01000193) 0x811c9dc5

end PluginSlot.Text
