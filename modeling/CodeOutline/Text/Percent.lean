import CodeOutline.Text.Utf8

/-!
# Percent escapes

A text inside an address: unreserved characters stand for themselves, every other octet of the text
in UTF-8 is written as `%` and two hexadecimal digits.
-/

namespace CodeOutline.Text.Percent

/-- A character that every part of an address may hold as it is. -/
def isUnreserved (c : Char) : Bool :=
  c.isAlphanum || c == '_' || c == '.' || c == '-' || c == '~'

/-- An upper-case hexadecimal digit. -/
def hexChar (n : Nat) : Char :=
  if n < 10 then Char.ofNat (0x30 + n) else Char.ofNat (0x41 + (n - 10))

/-- The escape of an octet. -/
def escapeOctet (b : UInt8) : List Char :=
  ['%', hexChar (b.toNat / 16), hexChar (b.toNat % 16)]

/-- A character, escaped unless it is unreserved or one of those to keep. -/
def escapeChar (keep : List Char) (c : Char) : List Char :=
  if isUnreserved c || keep.contains c then [c]
  else (String.utf8EncodeChar c).flatMap escapeOctet

/-- The escaped text. -/
def escape (keep : List Char) (s : String) : String :=
  String.ofList (s.toList.flatMap (escapeChar keep))

end CodeOutline.Text.Percent
