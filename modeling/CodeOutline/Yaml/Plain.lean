import CodeOutline.Yaml.Quoted

/-!
# Plain scalars

Text without quotes: words with single gaps between them, on one line or on several. In a block the
lines after the first stand deeper than the collection around the scalar. Inside brackets the marks
of collections end a word.
-/

namespace CodeOutline.Yaml

/-- A mark that ends an item inside brackets. -/
def isFlowMark (c : Char) : Bool :=
  c = ',' || c = '[' || c = ']' || c = '{' || c = '}'

/-- The length of the word that comes next. A colon ends it where a value may follow. -/
def wordLength (inFlow : Bool) : List Char → Nat
  | [] => 0
  | c :: rest =>
    if endsWord (some c) then 0
    else if c = ':' && (endsWord rest.head? || (inFlow && rest.head?.any isFlowMark)) then 0
    else if inFlow && (isFlowMark c || c = '?') then 0
    else wordLength inFlow rest + 1

/-- A gap between words. -/
structure Gap where
  /-- What it stands for, in reverse; nothing where the scalar ends. -/
  text : List Char
  /-- It crosses the end of a line. -/
  broken : Bool
  after : Cursor

/-- The gap after the end of a line, given the ends of the empty lines so far in reverse. -/
def gapBelow (first : Char) : Nat → List Char → Cursor → Gap
  | 0, _, p => ⟨[], true, p⟩
  | fuel + 1, breaks, p =>
    let below := p.skipSpaces
    match below.next? with
    | some c =>
      if isBreak c then
        if below.forward.atDocumentMark then ⟨[], true, below.forward⟩
        else gapBelow first fuel (breakText c :: breaks) below.forward
      else ⟨folded first breaks, true, below⟩
    | none => ⟨folded first breaks, true, below⟩

/-- The gap after a word. -/
def gap (p : Cursor) : Gap :=
  let (spaces, q) := p.span (· == ' ')
  match q.next? with
  | some c =>
    if isBreak c then
      if q.forward.atDocumentMark then ⟨[], true, q.forward⟩
      else gapBelow c (q.rest.length + 1) [] q.forward
    else ⟨spaces, false, q⟩
  | none => ⟨spaces, false, q⟩

/-- A plain scalar that has been read. -/
structure PlainScalar where
  text : List Char
  /-- The scalar is followed by the start of a line. -/
  broken : Bool
  after : Cursor

/-- The scalar from its next word on, given the text before in reverse, and whether the gap before
that word crosses the end of a line. -/
def plainFrom (inFlow : Bool) (least : Nat) : Nat → List Char → List Char → Bool → Cursor → PlainScalar
  | 0, done, _, broken, p => ⟨done.reverse, broken, p⟩
  | fuel + 1, done, spaces, broken, p =>
    match wordLength inFlow p.rest with
    | 0 => ⟨done.reverse, broken, p⟩
    | n + 1 =>
      let done := (p.rest.take (n + 1)).reverse ++ spaces ++ done
      let g := gap (p.advance (n + 1))
      if g.text.isEmpty || g.after.next? = some '#' || (!inFlow && g.after.column < least) then
        ⟨done.reverse, g.broken, g.after⟩
      else plainFrom inFlow least fuel done g.text g.broken g.after

/-- The plain scalar that comes next. Outside brackets its further lines start at column `least` or
after it. -/
def plainScalar (inFlow : Bool) (least : Nat) (p : Cursor) : PlainScalar :=
  plainFrom inFlow least p.rest.length [] [] false p

/-- A plain scalar can start here. -/
def startsPlain (inFlow : Bool) (p : Cursor) : Bool :=
  match p.rest with
  | [] => false
  | c :: rest =>
    !(endsWord (some c) || "-?:,[]\x7b\x7d#&*!|>'\"%@`".toList.contains c) ||
      (!endsWord rest.head? && (c = '-' || (!inFlow && (c = '?' || c = ':'))))

end CodeOutline.Yaml
