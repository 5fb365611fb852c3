/-!
Numbers written in base sixteen, as log lines and paths show them.
-/
namespace PluginSlot.Text

/-- Lower-case digits, no leading zeros. -/
def hexDigits (n : Nat) : List Char := Nat.toDigits 16 n

def zeroPadded (width : Nat) (digits : List Char) : List Char :=
  List.replicate (width - digits.length) '0' ++ digits

/-- The form 0x1f. -/
def hex (n : Nat) : String := "0x" ++ String.ofList (hexDigits n)

/-- The form 0x001f, with at least the given number of digits. -/
def hexPadded (width n : Nat) : String := "0x" ++ String.ofList (zeroPadded width (hexDigits n))

/-- Upper-case digits without a mark, with at least the given number of them. -/
def upperHex (width n : Nat) : String :=
  String.ofList ((zeroPadded width (hexDigits n)).map Char.toUpper)

def hexBytes (bytes : List UInt8) : String :=
  String.ofList (bytes.flatMap fun b => zeroPadded 2 (hexDigits b.toNat))

end PluginSlot.Text
