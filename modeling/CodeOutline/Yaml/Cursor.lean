import CodeOutline.Text.Hexadecimal

/-!
# Places in a document

A cursor is what is left of a text together with where that begins: the number of characters before
it, its line, and its column. Lines end at a line feed, a next-line character, a line separator or a
paragraph separator; a carriage return has become a line feed before reading starts.
-/

namespace CodeOutline.Yaml

open CodeOutline.Text

/-- Why a text is no document. -/
inductive ReadFault where
  /-- The text breaks a rule of the format. -/
  | malformed
  /-- An escape asks for a character beyond the last one. -/
  | codePoint (n : Nat)
  deriving Repr, DecidableEq

/-- The mark that may open a text and takes no column. -/
def byteOrderMark : Char := '\uFEFF'

/-- A character that may stand in a document. -/
def isPrintable (c : Char) : Bool :=
  let n := c.toNat
  n == 0x09 || n == 0x0A || n == 0x0D || (0x20 ≤ n && n ≤ 0x7E) || n == 0x85 ||
    (0xA0 ≤ n && n ≤ 0xFFFD) || 0x10000 ≤ n

/-- A character that ends a line. -/
def isBreak (c : Char) : Bool :=
  c = '\n' || c = '\x85' || c = '\u2028' || c = '\u2029'

/-- A space or a tab. -/
def isSpacing (c : Char) : Bool :=
  c = ' ' || c = '\t'

/-- The end of the line or of the text. -/
def endsLine : Option Char → Bool
  | none => true
  | some c => isBreak c

/-- A space, or the end of the line or of the text. -/
def endsField (c : Option Char) : Bool :=
  endsLine c || c = some ' '

/-- A space or a tab, or the end of the line or of the text. -/
def endsWord (c : Option Char) : Bool :=
  endsField c || c = some '\t'

/-- The characters of names: of anchors, directives and tag handles. -/
def isNameChar (c : Char) : Bool :=
  c.isAlphanum || c = '-' || c = '_'

/-- The number that exactly `count` hexadecimal digits at the start of the text write. -/
def hexNumber? (count : Nat) (cs : List Char) : Option Nat :=
  let digits := (cs.take count).filterMap hexValue?
  if digits.length = count then some (digits.foldl (fun n d => n * 16 + d) 0) else none

/-- What is left of a text, and where it begins. -/
structure Cursor where
  rest : List Char
  index : Nat := 0
  line : Nat := 0
  column : Nat := 0

namespace Cursor

/-- The next character. -/
def next? (p : Cursor) : Option Char := p.rest.head?

/-- The place after the next character. -/
def forward (p : Cursor) : Cursor :=
  match p.rest with
  | [] => p
  | c :: rest =>
    if isBreak c then { rest, index := p.index + 1, line := p.line + 1, column := 0 }
    else
      { rest, index := p.index + 1, line := p.line,
        column := if c = byteOrderMark then p.column else p.column + 1 }

/-- The place after a number of characters. -/
def advance (p : Cursor) : Nat → Cursor
  | 0 => p
  | n + 1 => p.forward.advance n

/-- The characters of a class that come next, and the place after them. -/
def span (p : Cursor) (accepts : Char → Bool) : List Char × Cursor :=
  let taken := p.rest.takeWhile accepts
  (taken, p.advance taken.length)

/-- The place after the characters of a class. -/
def skip (p : Cursor) (accepts : Char → Bool) : Cursor :=
  (p.span accepts).2

/-- The place after the spaces that come next. -/
def skipSpaces (p : Cursor) : Cursor := p.skip (· == ' ')

/-- The place after a comment, if one comes next. -/
def skipComment (p : Cursor) : Cursor :=
  if p.next? = some '#' then p.skip (!isBreak ·) else p

/-- The place after the end of the line, if it comes next. -/
def skipBreak (p : Cursor) : Cursor :=
  if p.next?.any isBreak then p.forward else p

/-- Three marks and the end of a word come next. -/
def startsWithMark (p : Cursor) (mark : Char) : Bool :=
  match p.rest with
  | a :: b :: c :: rest => a = mark && b = mark && c = mark && endsWord rest.head?
  | _ => false

/-- A line that opens or closes a document comes next. -/
def atDocumentMark (p : Cursor) : Bool :=
  p.startsWithMark '-' || p.startsWithMark '.'

/-- The rest of a line that may hold a comment and nothing else, and its end. -/
def finishLine (p : Cursor) : Except ReadFault Cursor :=
  let p := p.skipSpaces.skipComment
  if endsLine p.next? then .ok p.skipBreak else .error .malformed

end Cursor

/-- The text that the end of a line stands for. -/
def breakText (c : Char) : Char :=
  if c = '\x85' then '\n' else c

end CodeOutline.Yaml
