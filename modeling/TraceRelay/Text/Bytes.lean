/-! The bytes of a text, the text that bytes spell, and bytes in hexadecimal. -/

namespace TraceRelay

/-- The bytes of a text in UTF-8. -/
def textBytes (text : String) : List UInt8 := text.toUTF8.data.toList

/-- The text that the bytes spell, if they are valid UTF-8. -/
def bytesText? (bytes : List UInt8) : Option String :=
  String.fromUTF8? (ByteArray.mk bytes.toArray)

namespace Hexadecimal

/-- The character of a digit below sixteen. -/
def digit (value : Nat) : Char := Char.ofNat (if value < 10 then 48 + value else 87 + value)

/-- The value of a digit, in either case. -/
def digitValue (digit : Char) : Nat :=
  if digit.isDigit then digit.toNat - 48 else digit.toLower.toNat - 87

/-- Every byte as two digits. -/
def encode (bytes : List UInt8) : String :=
  String.ofList (bytes.flatMap fun byte => [digit (byte.toNat / 16), digit (byte.toNat % 16)])

/-- The bytes that pairs of digits show. -/
def decode : List Char → List UInt8
  | high :: low :: rest => UInt8.ofNat (16 * digitValue high + digitValue low) :: decode rest
  | _ => []

end Hexadecimal

end TraceRelay
