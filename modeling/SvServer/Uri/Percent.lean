import SvServer.Text.Hex

/-!
Percent-encoding. A byte that may not stand in a URI as it is, is written as a percent sign and two
hexadecimal digits.
-/

namespace SvServer.Uri

open SvServer.Text

/-! ## Reading -/

/-- The bytes that a text stands for: each percent sign with two hexadecimal digits is one byte. -/
def decodeBytes : List Char → List UInt8
  | [] => []
  | c :: rest =>
    match c, rest with
    | '%', a :: b :: more =>
      match hexValue? a, hexValue? b with
      | some high, some low => UInt8.ofNat (high * 16 + low) :: decodeBytes more
      | _, _ => 0x25 :: decodeBytes (a :: b :: more)
    | c, rest => c.toString.toUTF8.toList ++ decodeBytes rest
termination_by text => text.length

/-- The text that a percent-encoded text stands for, if it is UTF-8. -/
def decode? (text : List Char) : Option String :=
  String.fromUTF8? (ByteArray.mk (decodeBytes text).toArray)

/-! ## Writing -/

/-- Printable ASCII characters that stand for something else inside a path segment. -/
def reserved : List Char :=
  [' ', '"', '<', '>', '\x60', '#', '?', '\x7b', '\x7d', '/', '%', '\\']

/-- Whether a byte is written as it is. -/
def isPlain (byte : UInt8) : Bool :=
  0x20 ≤ byte && byte < 0x7F && !reserved.contains (Char.ofNat byte.toNat)

/-- A byte in a path segment. -/
def encodeByte (byte : UInt8) : List Char :=
  if isPlain byte then [Char.ofNat byte.toNat]
  else ['%', hexDigit (byte.toNat / 16), hexDigit (byte.toNat % 16)]

/-- A path segment. -/
def encodeSegment (segment : String) : String :=
  String.ofList (segment.toUTF8.toList.flatMap encodeByte)

end SvServer.Uri
