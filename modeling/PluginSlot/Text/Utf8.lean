/-!
The bytes of a text, and the text a byte sequence spells, if it is well-formed UTF-8.
-/
namespace PluginSlot.Text

def encode (s : String) : List UInt8 := s.toByteArray.data.toList

def decode (bytes : List UInt8) : Option String := String.fromUTF8? ⟨bytes.toArray⟩

theorem decode_encode (s : String) : decode (encode s) = some s := by
  have h : (⟨s.toByteArray.data.toList.toArray⟩ : ByteArray) = s.toByteArray := by simp
  simp only [decode, encode, h, String.fromUTF8?, s.isValidUTF8, dif_pos]
  rfl

theorem encode_inj {s t : String} (h : encode s = encode t) : s = t := by
  have := decode_encode s
  rw [h, decode_encode] at this
  exact (Option.some.inj this).symm

@[simp] theorem length_encode (s : String) : (encode s).length = s.utf8ByteSize := rfl

/-- The bytes of characters. -/
def bytes (cs : List Char) : List UInt8 := cs.flatMap String.utf8EncodeChar

theorem encode_ofList (cs : List Char) : encode (String.ofList cs) = bytes cs := by
  simp [encode, bytes, List.utf8Encode]

theorem encode_eq_bytes (s : String) : encode s = bytes s.toList := by
  rw [← encode_ofList, String.ofList_toList]

@[simp] theorem bytes_nil : bytes [] = [] := rfl

theorem bytes_cons (c : Char) (cs : List Char) :
    bytes (c :: cs) = String.utf8EncodeChar c ++ bytes cs := rfl

@[simp] theorem bytes_append (cs ds : List Char) : bytes (cs ++ ds) = bytes cs ++ bytes ds :=
  List.flatMap_append

end PluginSlot.Text
