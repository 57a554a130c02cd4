import CodeOutline.Yaml.Block
import CodeOutline.Yaml.Plain
import CodeOutline.Yaml.Tag

/-!
# Tokens of a document

Collections are written with brackets or by indentation. Indentation becomes tokens of its own: a
block collection opens at the first column that is deeper than those of the collections around it,
and closes at the next shallower line. That a text is a key shows only at the colon behind it, so
each place where a key may start is remembered as a candidate, and the tokens that open the key are
put in front of it once the colon comes.
-/

namespace CodeOutline.Yaml

/-- A piece of a document that the nodes are built from. -/
inductive Token where
  | directive (d : Directive)
  | documentStart
  | documentEnd
  | blockSequence
  | blockMapping
  | blockEnd
  | openBracket
  | closeBracket
  | openBrace
  | closeBrace
  /-- The mark before an item of a block sequence. -/
  | entry
  /-- The mark between two items inside brackets. -/
  | comma
  | key
  | value
  /-- The node that an anchor names. -/
  | reference (name : String)
  | anchor (name : String)
  | tag (t : TagText)
  | scalar (text : String) (plain : Bool)
  /-- The rest of the text has no tokens. -/
  | fault (f : ReadFault)
  deriving Repr, DecidableEq

/-- A place where a key may have started. -/
structure Candidate where
  /-- The number of tokens before it. -/
  position : Nat
  /-- Nothing but a key may stand there. -/
  required : Bool
  start : Cursor

/-- What is known at a place between two tokens. -/
structure Layout where
  cursor : Cursor
  tokens : Array Token := #[]
  /-- The number of brackets that are open. -/
  depth : Nat := 0
  /-- The columns of the open block collections, the innermost first. -/
  columns : List Nat := []
  /-- A key may start here. -/
  keyAllowed : Bool := true
  /-- The last candidate for each number of open brackets. -/
  candidates : List (Nat × Candidate) := []

namespace Layout

/-- Whether a bracket is open. -/
def inFlow (l : Layout) : Bool := l.depth ≠ 0

/-- The least column of what stands inside the innermost block collection. -/
def least (l : Layout) : Nat := (l.columns.head?.map (· + 1)).getD 0

def push (l : Layout) (t : Token) : Layout := { l with tokens := l.tokens.push t }

/-- A token that is written by a mark of one character. -/
def mark (l : Layout) (t : Token) : Layout :=
  { l.push t with cursor := l.cursor.forward }

/-- Closes the block collections that are deeper than a column. -/
def closeDeeper (column : Nat) : List Nat → Array Token → List Nat × Array Token
  | [], tokens => ([], tokens)
  | c :: rest, tokens =>
    if column < c then closeDeeper column rest (tokens.push .blockEnd) else (c :: rest, tokens)

/-- Closes the block collections that end before a column. Inside brackets none does. -/
def close (l : Layout) (column : Nat) : Layout :=
  if l.inFlow then l
  else
    let (columns, tokens) := closeDeeper column l.columns l.tokens
    { l with columns, tokens }

/-- Closes every block collection. -/
def closeAll (l : Layout) : Layout :=
  if l.inFlow then l
  else { l with columns := [], tokens := l.tokens ++ l.columns.map fun _ => Token.blockEnd }

/-- Whether a block collection at a column is deeper than those around it. -/
def isDeeper (l : Layout) (column : Nat) : Bool :=
  l.columns.head?.all (· < column)

/-- Opens a block collection at the cursor, if it is deeper than those around it. -/
def openBlock (l : Layout) (t : Token) : Layout :=
  if l.isDeeper l.cursor.column then
    { l.push t with columns := l.cursor.column :: l.columns }
  else l

/-! ## Candidates -/

/-- The greatest distance between the start of a key and its colon. -/
def keyReach : Nat := 1024

/-- A key that started there may still be going on. -/
def Candidate.isLive (p : Cursor) (c : Candidate) : Bool :=
  c.start.line = p.line && p.index - c.start.index ≤ keyReach

/-- Forgets the candidates that the cursor has left behind. -/
def dropStale (l : Layout) : Except ReadFault Layout :=
  let (live, stale) := l.candidates.partition fun c => Candidate.isLive l.cursor c.2
  if stale.any (·.2.required) then .error .malformed else .ok { l with candidates := live }

/-- The candidate for the current number of open brackets. -/
def candidate? (l : Layout) : Option Candidate :=
  (l.candidates.find? fun c => c.1 = l.depth).map (·.2)

/-- The candidates for other numbers of open brackets. -/
def otherCandidates (l : Layout) : List (Nat × Candidate) :=
  l.candidates.filter fun c => c.1 ≠ l.depth

/-- Forgets the current candidate. -/
def dropCandidate (l : Layout) : Except ReadFault Layout :=
  if l.candidate?.any (·.required) then .error .malformed
  else .ok { l with candidates := l.otherCandidates }

/-- Remembers that a key may start at the cursor. -/
def saveCandidate (l : Layout) : Except ReadFault Layout :=
  if l.keyAllowed then do
    let l ← l.dropCandidate
    let required := !l.inFlow && l.columns.head? = some l.cursor.column
    let c : Candidate := ⟨l.tokens.size, required, l.cursor⟩
    return { l with candidates := (l.depth, c) :: l.candidates }
  else .ok l

/-! ## Tokens -/

/-- Moves over what stands between tokens: spaces, comments and, where a line ends, its end. -/
def skipGap : Nat → Layout → Layout
  | 0, l => l
  | fuel + 1, l =>
    let p := l.cursor.skipSpaces.skipComment
    if p.next?.any isBreak then
      skipGap fuel { l with cursor := p.forward, keyAllowed := l.keyAllowed || !l.inFlow }
    else { l with cursor := p }

/-- Everything before a line that starts or ends a document, or speaks about one, is over. -/
def endDocument (l : Layout) : Except ReadFault Layout := do
  let l ← l.closeAll.dropCandidate
  return { l with keyAllowed := false }

/-- A line that starts or ends a document. -/
def documentMark (l : Layout) (t : Token) : Except ReadFault Layout := do
  let l ← l.endDocument
  return { l.push t with cursor := l.cursor.advance 3 }

/-- A line that speaks about the document after it. -/
def directiveLine (l : Layout) : Except ReadFault Layout := do
  let l ← l.endDocument
  let (d, cursor) ← directive l.cursor
  return { l.push (.directive d) with cursor }

/-- An opening bracket. -/
def opening (l : Layout) (t : Token) : Except ReadFault Layout := do
  let l ← l.saveCandidate
  return { l.mark t with depth := l.depth + 1, keyAllowed := true }

/-- A closing bracket. -/
def closing (l : Layout) (t : Token) : Except ReadFault Layout := do
  let l ← l.dropCandidate
  match l.depth with
  | 0 => .error .malformed
  | depth + 1 => return { l.mark t with depth, keyAllowed := false }

/-- The mark before an item of a block sequence. -/
def entryMark (l : Layout) : Except ReadFault Layout := do
  if !l.inFlow && !l.keyAllowed then throw .malformed
  let l := if l.inFlow then l else l.openBlock .blockSequence
  let l ← l.dropCandidate
  return { l.mark .entry with keyAllowed := true }

/-- The mark before a key of any length. -/
def keyMark (l : Layout) : Except ReadFault Layout := do
  if !l.inFlow && !l.keyAllowed then throw .malformed
  let l := if l.inFlow then l else l.openBlock .blockMapping
  let l ← l.dropCandidate
  return { l.mark .key with keyAllowed := !l.inFlow }

/-- The tokens with those that open a key put in front of it. -/
def openKey (l : Layout) (c : Candidate) : Layout :=
  let opens := !l.inFlow && l.isDeeper c.start.column
  let opened := if opens then [Token.blockMapping, .key] else [.key]
  { l with
    tokens := l.tokens.extract 0 c.position ++ opened ++ l.tokens.extract c.position l.tokens.size
    columns := if opens then c.start.column :: l.columns else l.columns
    candidates := l.otherCandidates
    keyAllowed := false }

/-- The mark before a value. -/
def valueMark (l : Layout) : Except ReadFault Layout := do
  match l.candidate? with
  | some c => return (l.openKey c).mark .value
  | none =>
    if !l.inFlow && !l.keyAllowed then throw .malformed
    let l := if l.inFlow then l else l.openBlock .blockMapping
    return { l.mark .value with keyAllowed := !l.inFlow }

/-- A token with a text of its own, which may start a key. -/
def word {α : Type} (l : Layout) (read : Cursor → Except ReadFault (α × Cursor)) (token : α → Token) :
    Except ReadFault Layout := do
  let l ← l.saveCandidate
  let (a, cursor) ← read l.cursor
  return { l.push (token a) with cursor, keyAllowed := false }

/-- A quoted scalar. -/
def quoted (l : Layout) (quote : Char) : Except ReadFault Layout :=
  l.word (quotedScalar quote) fun cs => .scalar (String.ofList cs) false

/-- A block scalar. -/
def block (l : Layout) (isFolded : Bool) : Except ReadFault Layout := do
  let l ← l.dropCandidate
  let (cs, cursor) ← blockScalar isFolded l.least l.cursor
  return { l.push (.scalar (String.ofList cs) false) with cursor, keyAllowed := true }

/-- A plain scalar. -/
def plain (l : Layout) : Except ReadFault Layout := do
  if !startsPlain l.inFlow l.cursor then throw .malformed
  let l ← l.saveCandidate
  let s := plainScalar l.inFlow l.least l.cursor
  return { l.push (.scalar (String.ofList s.text) true) with cursor := s.after, keyAllowed := s.broken }

/-- The token that starts with a character. -/
def token (l : Layout) (c : Char) : Except ReadFault Layout :=
  let spaced := endsWord l.cursor.forward.next?
  match c with
  | '[' => l.opening .openBracket
  | '\x7b' => l.opening .openBrace
  | ']' => l.closing .closeBracket
  | '\x7d' => l.closing .closeBrace
  | ',' => do
    let l ← l.dropCandidate
    return { l.mark .comma with keyAllowed := true }
  | '-' => if spaced then l.entryMark else l.plain
  | '?' => if l.inFlow || spaced then l.keyMark else l.plain
  | ':' => if l.inFlow || spaced then l.valueMark else l.plain
  | '*' => l.word anchorName .reference
  | '&' => l.word anchorName .anchor
  | '!' => l.word tag .tag
  | '|' => if l.inFlow then .error .malformed else l.block false
  | '>' => if l.inFlow then .error .malformed else l.block true
  | '\'' | '"' => l.quoted c
  | _ => l.plain

/-- The layout in front of the next token, where the collections that end before it are closed. -/
def arrive (l : Layout) : Except ReadFault Layout := do
  let l ← (skipGap (l.cursor.rest.length + 1) l).dropStale
  return l.close l.cursor.column

/-- The layout after the next token, which starts with a character. -/
def next (l : Layout) (c : Char) : Except ReadFault Layout :=
  if l.cursor.column ≠ 0 then l.token c
  else if c = '%' then l.directiveLine
  else if l.cursor.startsWithMark '-' then l.documentMark .documentStart
  else if l.cursor.startsWithMark '.' then l.documentMark .documentEnd
  else l.token c

/-- The tokens from a layout on, after those that it has. -/
def run : Nat → Layout → Array Token
  | 0, l => l.tokens
  | fuel + 1, l =>
    match l.arrive with
    | .error f => l.tokens.push (.fault f)
    | .ok l =>
      match l.cursor.next? with
      | none =>
        match l.endDocument with
        | .error f => l.tokens.push (.fault f)
        | .ok l => l.tokens
      | some c =>
        match l.next c with
        | .error f => l.tokens.push (.fault f)
        | .ok l => run fuel l

end Layout

/-- The tokens of a text. -/
def tokens (cs : List Char) : List Token :=
  let start : Cursor := { rest := cs }
  let start := if start.next? = some byteOrderMark then start.forward else start
  if cs.all isPrintable then (Layout.run (cs.length + 1) { cursor := start }).toList
  else [.fault .malformed]

end CodeOutline.Yaml
