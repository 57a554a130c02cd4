import CodeOutline.Data.Datum

/-!
# Writing JSON

A value as one line of JSON in ASCII: other characters are escaped as the units of UTF-16.
-/

namespace CodeOutline.Json

open CodeOutline.Data CodeOutline.Number CodeOutline.Text

/-- The escape of a UTF-16 unit. -/
def unitEscape (n : Nat) : List Char :=
  '\\' :: 'u' :: hexDigits 4 n

/-- A character inside a string. -/
def writtenChar (c : Char) : List Char :=
  let n := c.toNat
  if c = '"' || c = '\\' then ['\\', c]
  else if c = '\n' then ['\\', 'n']
  else if c = '\r' then ['\\', 'r']
  else if c = '\t' then ['\\', 't']
  else if c = '\x08' then ['\\', 'b']
  else if c = '\x0c' then ['\\', 'f']
  else if 0x20 ≤ n && n < 0x7F then [c]
  else if n < 0x10000 then unitEscape n
  else unitEscape (0xD800 + (n - 0x10000) / 0x400) ++ unitEscape (0xDC00 + (n - 0x10000) % 0x400)

/-- A string with its quotes. -/
def writtenText (s : String) : String :=
  String.ofList ('"' :: s.toList.flatMap writtenChar ++ ['"'])

/-- A floating-point number, with names for those that have no digits. -/
def writtenFloat : Binary64 → String
  | .nan => "NaN"
  | .infinite negative => if negative then "-Infinity" else "Infinity"
  | x => x.text

mutual

/-- A value. What JSON has no form for is written as the string of its literal. -/
def write : Datum → String
  | .null => "null"
  | .bool b => if b then "true" else "false"
  | .int i => toString i
  | .float x => writtenFloat x
  | .text s => writtenText s
  | .list items => "[" ++ ", ".intercalate (writeItems items) ++ "]"
  | .map entries => "\x7b" ++ ", ".intercalate (writeEntries entries) ++ "\x7d"
  | d => writtenText d.literal

def writeItems : List Datum → List String
  | [] => []
  | d :: rest => write d :: writeItems rest

def writeEntries : List (Datum × Datum) → List String
  | [] => []
  | (k, v) :: rest => (writtenText k.display ++ ": " ++ write v) :: writeEntries rest

end

end CodeOutline.Json
