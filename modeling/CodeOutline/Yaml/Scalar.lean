import CodeOutline.Data.Datum
import CodeOutline.Text.Base64
import CodeOutline.Yaml.Cursor
import CodeOutline.Yaml.Kind

/-!
# Values of scalars

What the text of a scalar stands for, by its kind. Numbers may have underscores anywhere. An integer
is written in base 2, 8, 10, 16 or 60, and a floating-point number in base 10 or 60.
-/

namespace CodeOutline.Yaml

open CodeOutline.Data CodeOutline.Number CodeOutline.Text

/-- Why a document has no value. -/
inductive Fault where
  | read (f : ReadFault)
  /-- A node is not of the shape that its kind asks for, or its kind is not known. -/
  | shape
  /-- A scalar is no integer in the base. -/
  | integer (base : Nat) (text : String)
  /-- An integer has too many digits. -/
  | longInteger (digits : Nat)
  /-- A scalar is no floating-point number. -/
  | float (text : String)
  /-- A place of a floating-point number to base sixty counts too much. -/
  | largeFloat
  /-- A number without digits. -/
  | noDigits
  /-- A scalar names no truth value. -/
  | truth (name : String)
  /-- A scalar is not written like a date or a moment. -/
  | notAMoment
  | moment (f : MomentFault)
  deriving Repr, DecidableEq

/-- The greatest code point that an escape may ask for and still count as a number of a character. -/
def codePointReach : Nat := 0x7FFFFFFF

def Fault.message : Fault → String
  | read .malformed | shape => "not valid YAML"
  | read (.codePoint n) =>
    if n ≤ codePointReach then "chr() arg not in range(0x110000)"
    else "Python int too large to convert to C int"
  | integer base text => notAnIntegerMessage base (Text.quoted text)
  | longInteger digits => longIntegerMessage (some digits)
  | float text => notAFloatMessage (Text.quoted text)
  | largeFloat => largeIntegerMessage
  | noDigits => "string index out of range"
  | truth name => Text.quoted name
  | notAMoment => "'NoneType' object has no attribute 'groupdict'"
  | moment f => f.message

namespace Scalar

/-! ## Numbers -/

/-- The number without its underscores, with its sign apart. -/
def unsigned (text : String) : Except Fault (Bool × List Char) :=
  match text.toList.filter (· ≠ '_') with
  | [] => .error .noDigits
  | '-' :: rest => .ok (true, rest)
  | '+' :: rest => .ok (false, rest)
  | cs => .ok (false, cs)

/-- The integer in a base. -/
def intIn (base : Nat) (cs : List Char) : Except Fault Int :=
  match if base = 10 then readInt cs else readInBase base cs with
  | .ok i => .ok i
  | .error .malformed => .error (.integer base (String.ofList cs))
  | .error (.tooLong n) => .error (.longInteger n)

/-- The places of a number, the last of which counts one and each before it sixty times as much as
the next. -/
def places (cs : List Char) : List (List Char) :=
  piecesFrom ':' [] cs

/-- The integer that a text stands for. -/
def int (text : String) : Except Fault Int := do
  let (negative, cs) ← unsigned text
  let n ← match cs with
    | ['0'] => pure 0
    | '0' :: 'b' :: rest => intIn 2 rest
    | '0' :: 'x' :: rest => intIn 16 rest
    | '0' :: _ => intIn 8 cs
    | [] => .error .noDigits
    | _ =>
      if cs.contains ':' then do
        let digits ← (places cs).mapM (intIn 10)
        pure (digits.foldl (fun n d => n * 60 + d) 0)
      else intIn 10 cs
  return if negative then -n else n

/-- The floating-point number in base 10. -/
def decimal (cs : List Char) : Except Fault Binary64 :=
  match readFloat cs with
  | some x => .ok x
  | none => .error (.float (String.ofList cs))

/-- The sum of places, given from the last one on. -/
def addPlaces (sum : Binary64) (weight : Nat) : List Binary64 → Except Fault Binary64
  | [] => .ok sum
  | x :: rest =>
    match Binary64.ofInt? weight with
    | some w => addPlaces (sum.add (x.mul w)) (weight * 60) rest
    | none => .error .largeFloat

/-- The number with a point that a text stands for. -/
def float (text : String) : Except Fault Binary64 := do
  let (negative, cs) ← unsigned text
  let cs := cs.map Char.toLower
  let x ←
    if String.ofList cs = ".inf" then pure (Binary64.infinite false)
    else if String.ofList cs = ".nan" then pure .nan
    else if cs.contains ':' then do
      let parts ← (places cs).mapM decimal
      addPlaces .zero 1 parts.reverse
    else decimal cs
  return if negative then x.neg else x

/-! ## Dates and moments -/

/-- A number of `least` to `least + more` digits, and the text after it. As many digits are taken as
there are. -/
def number? (least more : Nat) (cs : List Char) : Option (Nat × List Char) :=
  let digits := (cs.take (least + more)).takeWhile Char.isDigit
  if least ≤ digits.length then some (natOfDigits 10 digits, cs.drop digits.length) else none

/-- The text after a character that has to come. -/
def after? (mark : Char) : List Char → Option (List Char)
  | c :: rest => if c = mark then some rest else none
  | [] => none

/-- A distance from universal time in minutes, and the text after it. -/
def zone? : List Char → Option (Int × List Char)
  | 'Z' :: rest => some (0, rest)
  | c :: rest =>
    if c = '+' || c = '-' then do
      let (hours, rest) ← number? 1 1 rest
      let (minutes, rest) := ((after? ':' rest).bind (number? 2 0)).getD (0, rest)
      some (Binary64.signed (c = '-') (hours * 60 + minutes), rest)
    else none
  | [] => none

/-- The microseconds that the digits behind the point write, and the text after them. -/
def fraction (cs : List Char) : Nat × List Char :=
  match cs with
  | '.' :: rest =>
    let digits := rest.takeWhile Char.isDigit
    (natOfDigits 10 ((digits ++ List.replicate 6 '0').take 6), rest.drop digits.length)
  | _ => (0, cs)

/-- A time of day: hour, minute, second, microsecond and distance from universal time. -/
structure Clock where
  hour : Nat
  minute : Nat
  second : Nat
  microsecond : Nat
  offset : Option Int

/-- The end of the text, or a line end at its end. -/
def isOver (cs : List Char) : Bool :=
  cs.isEmpty || cs = ['\n']

/-- The time of day that a text is, behind a date. -/
def clock? (cs : List Char) : Option Clock := do
  let blanks := cs.takeWhile fun c => c = ' ' || c = '\t'
  let rest ←
    match cs with
    | 'T' :: rest | 't' :: rest => some rest
    | _ => if blanks.isEmpty then none else some (cs.drop blanks.length)
  let (hour, rest) ← number? 1 1 rest
  let (minute, rest) ← number? 2 0 (← after? ':' rest)
  let (second, rest) ← number? 2 0 (← after? ':' rest)
  let (microsecond, rest) := fraction rest
  if isOver rest then return { hour, minute, second, microsecond, offset := none }
  let (minutes, rest) ← zone? (rest.dropWhile fun c => c = ' ' || c = '\t')
  if isOver rest then return { hour, minute, second, microsecond, offset := some minutes } else none

/-- The numbers of a date, and the text after it. -/
def calendar? (cs : List Char) : Option ((Nat × Nat × Nat) × List Char) := do
  let (year, rest) ← number? 4 0 cs
  let (month, rest) ← number? 1 1 (← after? '-' rest)
  let (day, rest) ← number? 1 1 (← after? '-' rest)
  return ((year, month, day), rest)

/-- The date or the time that a text stands for. -/
def moment (text : String) : Except Fault Datum :=
  let checked {α : Type} (value : α → Datum) (r : Except MomentFault α) : Except Fault Datum :=
    match r with
    | .ok a => .ok (value a)
    | .error f => .error (.moment f)
  match calendar? text.toList with
  | none => .error .notAMoment
  | some ((year, month, day), rest) =>
    if isOver rest then checked .date (Date.make year month day)
    else
      match clock? rest with
      | none => .error .notAMoment
      | some c =>
        checked .moment (Moment.make year month day c.hour c.minute c.second c.microsecond c.offset)

/-! ## Other kinds -/

/-- The truth value that a text stands for. -/
def bool (text : String) : Except Fault Bool :=
  let name := String.ofList (text.toList.map Char.toLower)
  if ["yes", "true", "on"].contains name then .ok true
  else if ["no", "false", "off"].contains name then .ok false
  else .error (.truth name)

/-- The octets that a text stands for in base64. -/
def octets (text : String) : Except Fault Octets :=
  if text.toList.all (·.toNat < 0x80) then
    match Base64.decodeLoosely text.toList with
    | some octets => .ok octets
    | none => .error .shape
  else .error .shape

/-- The value of a text by its kind. -/
def value (kind : Kind) (text : String) : Except Fault Datum :=
  match kind with
  | .null => .ok .null
  | .bool => (bool text).map .bool
  | .int => (int text).map .int
  | .float => (float text).map .float
  | .binary => (octets text).map .bytes
  | .moment => moment text
  | .text => .ok (.text text)
  | _ => .error .shape

end Scalar

end CodeOutline.Yaml
