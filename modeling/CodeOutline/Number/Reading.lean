import CodeOutline.Number.Binary64
import CodeOutline.Text.Blank
import CodeOutline.Text.Digit
import CodeOutline.Text.Hexadecimal
import CodeOutline.Text.Lines

/-!
# Reading numbers

Numbers as people write them into settings: blanks around the number, a sign, digits of any script,
and single underscores between digits. Integers of more than `digitLimit` digits are refused, and so
are their decimal forms.
-/

namespace CodeOutline.Number

open CodeOutline.Text

/-- The number of decimal digits that an integer may have where it is read or written. -/
def digitLimit : Nat := 4300

/-- Why a text is no integer. -/
inductive IntFault where
  | malformed
  | tooLong (digits : Nat)
  deriving Repr, DecidableEq

/-- The message for an integer with too many digits. Where the number is not known yet but its text
is, it says how many digits there are. -/
def longIntegerMessage (digits : Option Nat) : String :=
  let shown := (digits.map fun n => s!": value has {n} digits").getD ""
  s!"Exceeds the limit ({digitLimit} digits) for integer string conversion" ++ shown ++
    "; use sys.set_int_max_str_digits() to increase the limit"

/-- The number of characters of a text that a message about an integer shows. -/
def shownLimit : Nat := 200

/-- The message for a text, given as a literal, that is no integer in a base. -/
def notAnIntegerMessage (base : Nat) (shown : String) : String :=
  s!"invalid literal for int() with base {base}: {String.ofList (shown.toList.take shownLimit)}"

/-- The message for a text, given as a literal, that is no floating-point number. -/
def notAFloatMessage (shown : String) : String :=
  s!"could not convert string to float: {shown}"

/-- The message for an integer that is too large for a floating-point number. -/
def largeIntegerMessage : String := "int too large to convert to float"

/-- A blank that may stand around a number: any but the information separators. -/
def isPadding (c : Char) : Bool :=
  isBlank c && !(0x1C ≤ c.toNat && c.toNat ≤ 0x1F)

/-- The text without the padding at its ends. -/
def unpadded (cs : List Char) : List Char :=
  ((cs.dropWhile isPadding).reverse.dropWhile isPadding).reverse

/-- The text with every digit written in ASCII. -/
def asciiDigits (cs : List Char) : List Char :=
  cs.map fun c => ((digitValue? c).map fun n => Char.ofNat (0x30 + n)).getD c

/-- Whether the number is negative, and the text after the sign. -/
def splitSign : List Char → Bool × List Char
  | '-' :: rest => (true, rest)
  | '+' :: rest => (false, rest)
  | cs => (false, cs)

/-- The digits at the start of the text, and the text after them. An underscore counts as part of
the digits where it stands between two of them. -/
def takeDigits : List Char → List Char × List Char
  | c :: '_' :: d :: rest =>
    if c.isDigit && d.isDigit then
      let (digits, after) := takeDigits (d :: rest)
      (c :: digits, after)
    else if c.isDigit then ([c], '_' :: d :: rest)
    else ([], c :: '_' :: d :: rest)
  | c :: rest =>
    if c.isDigit then
      let (digits, after) := takeDigits rest
      (c :: digits, after)
    else ([], c :: rest)
  | [] => ([], [])

/-- The value of ASCII digits in a base up to 16. -/
def natOfDigits (base : Nat) (digits : List Char) : Nat :=
  digits.foldl (fun n c => n * base + (hexValue? c).getD 0) 0

/-- The integer that a text writes. -/
def readInt (cs : List Char) : Except IntFault Int :=
  let (negative, body) := splitSign (asciiDigits (unpadded cs))
  match takeDigits body with
  | ([], _) | (_, _ :: _) => .error .malformed
  | (digits, []) =>
    if digits.length > digitLimit then .error (.tooLong digits.length)
    else .ok (Binary64.signed negative (natOfDigits 10 digits))

/-! ## Other bases -/

/-- The digits that a text consists of, where single underscores may stand between two of them. -/
def digitsIn? (base : Nat) (cs : List Char) : Option (List Char) :=
  let isDigitIn (c : Char) : Bool := (hexValue? c).any (· < base)
  let parts := piecesFrom '_' [] cs
  if parts.all fun part => !part.isEmpty && part.all isDigitIn then some parts.flatten else none

/-- The letter between a zero and the digits that shows their base. -/
def isBaseLetter (base : Nat) (c : Char) : Bool :=
  match base with
  | 2 => c = 'b' || c = 'B'
  | 8 => c = 'o' || c = 'O'
  | 16 => c = 'x' || c = 'X'
  | _ => false

/-- The text after what shows the base. -/
def withoutBase (base : Nat) : List Char → List Char
  | '0' :: c :: rest =>
    if isBaseLetter base c then (match rest with | '_' :: more => more | _ => rest)
    else '0' :: c :: rest
  | cs => cs

/-- The integer that a text writes in base 2, 8 or 16. -/
def readInBase (base : Nat) (cs : List Char) : Except IntFault Int :=
  let (negative, body) := splitSign (asciiDigits (unpadded cs))
  match digitsIn? base (withoutBase base body) with
  | some digits => .ok (Binary64.signed negative (natOfDigits base digits))
  | none => .error .malformed

/-! ## Floating-point numbers -/

/-- The number after an `e`, if the text has one. -/
def readExponent : List Char → Option Int
  | [] => some 0
  | e :: rest =>
    if e = 'e' || e = 'E' then
      let (negative, body) := splitSign rest
      match takeDigits body with
      | ([], _) | (_, _ :: _) => none
      | (digits, []) => some (Binary64.signed negative (natOfDigits 10 digits))
    else none

/-- Digits with an optional point and exponent. -/
def readDecimal (negative : Bool) (cs : List Char) : Option Binary64 :=
  let (whole, afterWhole) := takeDigits cs
  let (fraction, rest) :=
    match afterWhole with
    | '.' :: afterPoint => takeDigits afterPoint
    | _ => ([], afterWhole)
  if whole.isEmpty && fraction.isEmpty then none
  else (readExponent rest).map fun e =>
    Binary64.ofDecimal negative (natOfDigits 10 (whole ++ fraction)) (e - fraction.length)

/-- The floating-point number that a text writes. -/
def readFloat (cs : List Char) : Option Binary64 :=
  let (negative, body) := splitSign (asciiDigits (unpadded cs))
  let name := String.ofList (body.map Char.toLower)
  if name = "inf" || name = "infinity" then some (.infinite negative)
  else if name = "nan" then some .nan
  else readDecimal negative body

end CodeOutline.Number
