import CodeOutline.Yaml.Cursor

/-!
# Block scalars

Indented text after `|`, which keeps its lines, or after `>`, which folds them: the end of a line
between two lines that start with no blank stands for a space. A header says how many columns the
text is indented, if its first line does not show it, and what becomes of the line ends at its end.
-/

namespace CodeOutline.Yaml

/-- What becomes of the line ends at the end of a block scalar. -/
inductive Chomping where
  /-- One of them stays. -/
  | clip
  /-- None of them stays. -/
  | strip
  /-- All of them stay. -/
  | keep
  deriving Repr, DecidableEq

/-- What the header of a block scalar says. -/
structure BlockHeader where
  chomping : Chomping := .clip
  /-- The columns by which the text is indented below its surroundings. -/
  increment : Option Nat := none

namespace BlockHeader

/-- The mark of a chomping. -/
def chomping? : Char → Option Chomping
  | '+' => some .keep
  | '-' => some .strip
  | _ => none

/-- The number of columns that a digit asks for; zero is none. -/
def increment? (c : Char) : Option Nat :=
  if c.isDigit && c ≠ '0' then some (c.toNat - 0x30) else none

/-- The header behind the mark of the scalar, and the place after it. Its two parts come in any
order. -/
def read (p : Cursor) : BlockHeader × Cursor :=
  match p.next?.bind chomping? with
  | some chomping =>
    let p := p.forward
    match p.next?.bind increment? with
    | some n => (⟨chomping, some n⟩, p.forward)
    | none => (⟨chomping, none⟩, p)
  | none =>
    match p.next?.bind increment? with
    | some n =>
      let p := p.forward
      match p.next?.bind chomping? with
      | some chomping => (⟨chomping, some n⟩, p.forward)
      | none => (⟨.clip, some n⟩, p)
    | none => (⟨.clip, none⟩, p)

end BlockHeader

/-- The place after the spaces that come next, up to a column. -/
def indentTo (column : Nat) : Nat → Cursor → Cursor
  | 0, p => p
  | fuel + 1, p =>
    if p.column < column && p.next? = some ' ' then indentTo column fuel p.forward else p

/-- The ends of the empty lines that come next, in reverse, and the place after them and after the
indentation of the next line. -/
def blockBreaks (column : Nat) : Nat → List Char → Cursor → List Char × Cursor
  | 0, breaks, p => (breaks, p)
  | fuel + 1, breaks, p =>
    let p := indentTo column p.rest.length p
    match p.next? with
    | some c =>
      if isBreak c then blockBreaks column fuel (breakText c :: breaks) p.forward else (breaks, p)
    | none => (breaks, p)

/-- The ends of the empty lines that come next, in reverse, the greatest column that their spaces and
those of the line after them reach, and the place after all of these. -/
def blockIndentation : Nat → List Char → Nat → Cursor → List Char × Nat × Cursor
  | 0, breaks, column, p => (breaks, column, p)
  | fuel + 1, breaks, column, p =>
    match p.next? with
    | some c =>
      if c = ' ' then blockIndentation fuel breaks (max column p.forward.column) p.forward
      else if isBreak c then blockIndentation fuel (breakText c :: breaks) column p.forward
      else (breaks, column, p)
    | none => (breaks, column, p)

/-- The text of a block scalar from the start of a line on, given the text before in reverse, the
empty lines before the line in reverse, and the end of the line before them. -/
def blockLines (isFolded : Bool) (header : BlockHeader) (column : Nat) :
    Nat → List Char → List Char → List Char → Cursor → List Char × Cursor
  | 0, done, _, _, p => (done.reverse, p)
  | fuel + 1, done, lineEnd, breaks, p =>
    if p.column = column && p.next?.isSome then
      let startsBlank := p.next?.any isSpacing
      let (line, q) := p.span (!isBreak ·)
      let done := line.reverse ++ breaks ++ done
      let lineEnd := (q.next?.map breakText).toList
      let (breaks, q) := blockBreaks column (q.rest.length + 1) [] q.skipBreak
      if q.column = column && q.next?.isSome then
        let joins := isFolded && lineEnd = ['\n'] && !startsBlank && !q.next?.any isSpacing
        let joint := if !joins then lineEnd else if breaks.isEmpty then [' '] else []
        blockLines isFolded header column fuel (joint ++ done) lineEnd breaks q
      else finish done lineEnd breaks q
    else finish done lineEnd breaks p
where
  finish (done lineEnd breaks : List Char) (p : Cursor) : List Char × Cursor :=
    match header.chomping with
    | .strip => (done.reverse, p)
    | .clip => ((lineEnd ++ done).reverse, p)
    | .keep => ((breaks ++ lineEnd ++ done).reverse, p)

/-- The text of a block scalar whose mark comes next, and the place after it. The collection around
it asks for an indentation of `least` columns. -/
def blockScalar (isFolded : Bool) (least : Nat) (p : Cursor) : Except ReadFault (List Char × Cursor) := do
  let (header, p) := BlockHeader.read p.forward
  if !endsField p.next? then throw .malformed
  let p ← p.finishLine
  let least := max least 1
  let fuel := p.rest.length + 1
  match header.increment with
  | some n =>
    let column := least + n - 1
    let (breaks, p) := blockBreaks column fuel [] p
    return blockLines isFolded header column fuel [] [] breaks p
  | none =>
    let (breaks, column, p) := blockIndentation fuel [] 0 p
    return blockLines isFolded header (max least column) fuel [] [] breaks p

end CodeOutline.Yaml
