import CodeOutline.Data.Datum

/-!
# Conversion of settings

A setting is read with leniency: what is written as a number may be a text, what is wanted as a text
may be anything, and what is wanted as a truth value too.
-/

namespace CodeOutline.Config

open CodeOutline.Data CodeOutline.Number CodeOutline.Text

/-- Why a value is not what a setting asks for. -/
inductive ConversionFault where
  /-- A value of the type has no entries. -/
  | noEntries (typeName : String)
  /-- A text, given as a literal, is no integer. -/
  | notAnInteger (shown : String)
  /-- An integer has too many digits to be read. -/
  | longInteger (digits : Nat)
  /-- An integer has too many digits to be written. -/
  | longText
  /-- A value of the type is no integer. -/
  | noInteger (typeName : String)
  | nanAsInteger
  /-- A text, given as a literal, is no floating-point number. -/
  | notAFloat (shown : String)
  /-- A value of the type is no floating-point number. -/
  | noFloat (typeName : String)
  /-- An infinite number has no integer. -/
  | infinite
  /-- An integer is too large for a floating-point number. -/
  | large
  deriving Repr, DecidableEq

namespace ConversionFault

def message : ConversionFault → String
  | noEntries typeName => s!"'{typeName}' object has no attribute 'get'"
  | notAnInteger shown => notAnIntegerMessage 10 shown
  | longInteger digits => longIntegerMessage (some digits)
  | longText => longIntegerMessage none
  | noInteger typeName =>
    s!"int() argument must be a string, a bytes-like object or a real number, not '{typeName}'"
  | nanAsInteger => "cannot convert float NaN to integer"
  | notAFloat shown => notAFloatMessage shown
  | noFloat typeName => s!"float() argument must be a string or a real number, not '{typeName}'"
  | infinite => "cannot convert float infinity to integer"
  | large => largeIntegerMessage

/-- The value is a number beyond the range of what is asked for. -/
def isOverflow : ConversionFault → Bool
  | infinite | large => true
  | _ => false

end ConversionFault

/-- The entries of a mapping. -/
def entriesOf : Datum → Except ConversionFault (List (Datum × Datum))
  | .map entries => .ok entries
  | d => .error (.noEntries d.typeName)

/-- A value as a text, which every value has unless it holds too long an integer. -/
def textOf (d : Datum) : Except ConversionFault String :=
  if d.hasLongInteger then .error .longText else .ok d.display

/-- The integer that a text writes; the text is given as characters and as a literal. -/
def intOfText (cs : List Char) (shown : String) : Except ConversionFault Int :=
  match readInt cs with
  | .ok i => .ok i
  | .error .malformed => .error (.notAnInteger shown)
  | .error (.tooLong n) => .error (.longInteger n)

/-- The characters with the numbers of octets. -/
def charsOf (octets : List UInt8) : List Char := octets.map fun b => Char.ofNat b.toNat

/-- The octets are those of ASCII characters; no others write a number. -/
def isAscii (octets : List UInt8) : Bool := octets.all (·.toNat < 0x80)

/-- A value as an integer: numbers lose their fraction, texts are read. -/
def intOf : Datum → Except ConversionFault Int
  | .int i => .ok i
  | .bool b => .ok (if b then 1 else 0)
  | .float x =>
    match x.truncate? with
    | some i => .ok i
    | none => .error (if x = .nan then .nanAsInteger else .infinite)
  | .text s => intOfText s.toList (quoted s)
  | .bytes octets =>
    let shown := Datum.bytesLiteral octets
    if isAscii octets then intOfText (charsOf octets) shown else .error (.notAnInteger shown)
  | d => .error (.noInteger d.typeName)

/-- The number that a text writes; the text is given as characters and as a literal. -/
def floatOfText (cs : List Char) (shown : String) : Except ConversionFault Binary64 :=
  match readFloat cs with
  | some x => .ok x
  | none => .error (.notAFloat shown)

/-- A value as a floating-point number: texts are read. -/
def floatOf : Datum → Except ConversionFault Binary64
  | .float x => .ok x
  | .int i =>
    match Binary64.ofInt? i with
    | some x => .ok x
    | none => .error .large
  | .bool b => .ok (.ofDecimal false (if b then 1 else 0) 0)
  | .text s => floatOfText s.toList (quoted s)
  | .bytes octets =>
    let shown := Datum.bytesLiteral octets
    if isAscii octets then floatOfText (charsOf octets) shown else .error (.notAFloat shown)
  | d => .error (.noFloat d.typeName)

end CodeOutline.Config
