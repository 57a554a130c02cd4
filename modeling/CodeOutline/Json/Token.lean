import CodeOutline.Data.Datum
import CodeOutline.Json.Encoding

/-!
# Tokens of JSON

`tokens` cuts a text into symbols and scalars, each with the position of its first character. What
cannot be a token is one too, a `fault`: whether it matters depends on what the reader expects in its
place.
-/

namespace CodeOutline.Json

open CodeOutline.Data CodeOutline.Number CodeOutline.Text

/-- Why a text is not JSON. -/
inductive Reason where
  | noValue
  | noName
  | noColon
  | noComma
  | extraData
  | unterminatedString
  | controlCharacter
  | escape
  | unicodeEscape
  deriving Repr, DecidableEq

def Reason.message : Reason → String
  | noValue => "Expecting value"
  | noName => "Expecting property name enclosed in double quotes"
  | noColon => "Expecting ':' delimiter"
  | noComma => "Expecting ',' delimiter"
  | extraData => "Extra data"
  | unterminatedString => "Unterminated string starting at"
  | controlCharacter => "Invalid control character at"
  | escape => "Invalid \\escape"
  | unicodeEscape => "Invalid \\uXXXX escape"

/-- A fault of a text, with the position of the character to blame. -/
inductive Fault where
  | malformed (reason : Reason) (position : Nat)
  /-- An integer of too many digits. -/
  | longInteger (digits : Nat)
  deriving Repr, DecidableEq

/-- What a token is. -/
inductive Lexeme where
  /-- A bracket, a colon or a comma. -/
  | symbol (c : Char)
  | scalar (d : Datum)
  | fault (f : Fault)

/-- A token and the position of its first character. -/
structure Token where
  start : Nat
  lexeme : Lexeme

/-- White space between tokens. -/
def isSpace (c : Char) : Bool :=
  c == ' ' || c == '\t' || c == '\n' || c == '\r'

/-! ## Strings -/

/-- The value of the four hexadecimal digits at the start of a text that goes on after them. -/
def unicodeEscape? : List Char → Option Nat
  | a :: b :: c :: d :: _ :: _ => do
    return (((← hexValue? a) * 16 + (← hexValue? b)) * 16 + (← hexValue? c)) * 16 + (← hexValue? d)
  | _ => none

/-- The character of a four-digit escape that the escape after it completes to a surrogate pair. -/
def surrogatePair? (high : Nat) : List Char → Option Char
  | '\\' :: 'u' :: rest =>
    match unicodeEscape? rest with
    | some low =>
      if isHighSurrogate high && isLowSurrogate low then some (joinSurrogates high low) else none
    | none => none
  | _ => none

/-- The character after a backslash, other than `u`. -/
def escaped? : Char → Option Char
  | '"' => some '"'
  | '\\' => some '\\'
  | '/' => some '/'
  | 'b' => some '\x08'
  | 'f' => some '\x0c'
  | 'n' => some '\n'
  | 'r' => some '\r'
  | 't' => some '\t'
  | _ => none

/-- The inside of a string up to its closing quote: the characters and the position behind the quote.
`start` is where the string begins, `done` are the characters so far in reverse. -/
def stringFrom (start : Nat) (done : List Char) (position : Nat) :
    List Char → Except Fault (List Char × Nat)
  | [] => .error (.malformed .unterminatedString start)
  | '"' :: _ => .ok (done.reverse, position + 1)
  | ['\\'] => .error (.malformed .unterminatedString start)
  | '\\' :: 'u' :: rest =>
    match unicodeEscape? rest with
    | none => .error (.malformed .unicodeEscape (position + 1))
    | some n =>
      match surrogatePair? n (rest.drop 4) with
      | some c => stringFrom start (c :: done) (position + 12) (rest.drop 10)
      | none => stringFrom start (charOf n :: done) (position + 6) (rest.drop 4)
  | '\\' :: c :: rest =>
    match escaped? c with
    | some e => stringFrom start (e :: done) (position + 2) rest
    | none => .error (.malformed .escape position)
  | c :: rest =>
    if c.toNat < 0x20 then .error (.malformed .controlCharacter position)
    else stringFrom start (c :: done) (position + 1) rest
termination_by cs => cs.length
decreasing_by all_goals simp only [List.length_cons, List.length_drop]; omega

/-! ## Numbers and words -/

/-- Digits at the start of a text. -/
def leadingDigits (cs : List Char) : List Char :=
  cs.takeWhile Char.isDigit

/-- The part of a number behind the point, with the point. -/
def fractionPart (cs : List Char) : List Char :=
  match cs with
  | '.' :: rest =>
    let digits := leadingDigits rest
    if digits.isEmpty then [] else '.' :: digits
  | _ => []

/-- The exponent of a number. -/
def exponentPart (cs : List Char) : List Char :=
  match cs with
  | e :: rest =>
    if e = 'e' || e = 'E' then
      let sign := (rest.take 1).filter fun c => c = '+' || c = '-'
      let digits := leadingDigits (rest.drop sign.length)
      if digits.isEmpty then [] else e :: sign ++ digits
    else []
  | [] => []

/-- The number at the start of a text and its length. An integer starts with a zero only if it is
zero. -/
def number? (cs : List Char) : Option (Lexeme × Nat) :=
  let sign := (cs.take 1).filter (· = '-')
  let body := cs.drop sign.length
  let whole := if body.head? = some '0' then ['0'] else leadingDigits body
  if whole.isEmpty then none
  else
    let afterWhole := body.drop whole.length
    let fraction := fractionPart afterWhole
    let exponent := exponentPart (afterWhole.drop fraction.length)
    let text := sign ++ whole ++ fraction ++ exponent
    if fraction.isEmpty && exponent.isEmpty then
      if whole.length > digitLimit then some (.fault (.longInteger whole.length), text.length)
      else some (.scalar (.int (Binary64.signed (!sign.isEmpty) (natOfDigits 10 whole))), text.length)
    else (readFloat text).map fun x => (.scalar (.float x), text.length)

/-- The words that are values. -/
def words : List (String × Datum) :=
  [("null", .null), ("true", .bool true), ("false", .bool false), ("NaN", .float .nan),
    ("Infinity", .float (.infinite false)), ("-Infinity", .float (.infinite true))]

/-- The token that begins with `c` at the given position, and its length. -/
def lexeme (position : Nat) (c : Char) (rest : List Char) : Lexeme × Nat :=
  if ['[', ']', '\x7b', '\x7d', ':', ','].contains c then (.symbol c, 1)
  else if c = '"' then
    match stringFrom position [] (position + 1) rest with
    | .ok (cs, next) => (.scalar (.text (String.ofList cs)), next - position)
    | .error f => (.fault f, 1)
  else
    match words.find? fun w => w.1.toList.isPrefixOf (c :: rest) with
    | some (word, d) => (.scalar d, word.length)
    | none => (number? (c :: rest)).getD (.fault (.malformed .noValue position), 1)

/-- The tokens of the rest of a text, given those before it in reverse. A fault is the last token. -/
def tokensFrom (done : List Token) (position : Nat) : List Char → List Token
  | [] => done.reverse
  | c :: rest =>
    if isSpace c then tokensFrom done (position + 1) rest
    else
      let (lexeme, length) := lexeme position c rest
      match lexeme with
      | .fault _ => (⟨position, lexeme⟩ :: done).reverse
      | _ => tokensFrom (⟨position, lexeme⟩ :: done) (position + length) (rest.drop (length - 1))
termination_by cs => cs.length
decreasing_by all_goals simp only [List.length_cons, List.length_drop]; omega

/-- The tokens of a text. -/
def tokens (cs : List Char) : List Token :=
  tokensFrom [] 0 cs

end CodeOutline.Json
