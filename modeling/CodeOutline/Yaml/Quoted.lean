import CodeOutline.Yaml.Cursor

/-!
# Quoted scalars

Text in single quotes, where a quote is written twice, and text in double quotes, where a backslash
opens an escape. In both a line break is folded: it stands for a space, unless empty lines follow,
which stand for themselves. A line that opens or closes a document may not stand inside quotes.
-/

namespace CodeOutline.Yaml

/-- The characters that the end of a line and the empty lines after it stand for, in reverse. -/
def folded (first : Char) (breaks : List Char) : List Char :=
  let first := breakText first
  if first ≠ '\n' then breaks ++ [first]
  else if breaks.isEmpty then [' ']
  else breaks

/-- The ends of the empty lines at the start of a line, in reverse, and the place after them and the
blanks that follow. -/
def emptyLines : Nat → List Char → Cursor → Except ReadFault (List Char × Cursor)
  | 0, _, _ => .error .malformed
  | fuel + 1, breaks, p =>
    if p.atDocumentMark then .error .malformed
    else
      let p := p.skip isSpacing
      match p.next? with
      | some c =>
        if isBreak c then emptyLines fuel (breakText c :: breaks) p.forward else .ok (breaks, p)
      | none => .ok (breaks, p)

/-- The character that a letter after a backslash stands for. -/
def escaped? : Char → Option Char
  | '0' => some '\x00'
  | 'a' => some '\x07'
  | 'b' => some '\x08'
  | 't' | '\t' => some '\t'
  | 'n' => some '\n'
  | 'v' => some '\x0b'
  | 'f' => some '\x0c'
  | 'r' => some '\r'
  | 'e' => some '\x1b'
  | ' ' => some ' '
  | '"' => some '"'
  | '\\' => some '\\'
  | '/' => some '/'
  | 'N' => some '\x85'
  | '_' => some '\xa0'
  | 'L' => some '\u2028'
  | 'P' => some '\u2029'
  | _ => none

/-- The number of hexadecimal digits after a letter that opens a code point. -/
def codeLength? : Char → Option Nat
  | 'x' => some 2
  | 'u' => some 4
  | 'U' => some 8
  | _ => none

/-- What the characters after a backslash stand for, in reverse, and the place after them. -/
def escape (p : Cursor) : Except ReadFault (List Char × Cursor) :=
  match p.next? with
  | none => .error .malformed
  | some c =>
    match escaped? c, codeLength? c with
    | some d, _ => .ok ([d], p.forward)
    | none, some count =>
      match hexNumber? count p.forward.rest with
      | none => .error .malformed
      | some n =>
        if n < 0x110000 then
          let d := if n.isValidChar then Char.ofNat n else '\uFFFD'
          .ok ([d], p.advance (count + 1))
        else .error (.codePoint n)
    | none, none =>
      if isBreak c then emptyLines (p.rest.length + 1) [] p.forward else .error .malformed

/-- The text up to the closing quote, given the text before in reverse, and the place after the
quote. -/
def quotedFrom (quote : Char) : Nat → List Char → Cursor → Except ReadFault (List Char × Cursor)
  | 0, _, _ => .error .malformed
  | fuel + 1, done, p =>
    match p.rest with
    | [] => .error .malformed
    | c :: rest =>
      if isSpacing c || isBreak c then do
        let (blanks, q) := p.span isSpacing
        match q.next? with
        | none => .error .malformed
        | some d =>
          if isBreak d then
            let (breaks, q) ← emptyLines (q.rest.length + 1) [] q.forward
            quotedFrom quote fuel (folded d breaks ++ done) q
          else quotedFrom quote fuel (blanks.reverse ++ done) q
      else if c = quote then
        if quote = '\'' && rest.head? = some quote then quotedFrom quote fuel (c :: done) (p.advance 2)
        else .ok (done.reverse, p.forward)
      else if c = '\\' && quote = '"' then do
        let (text, q) ← escape p.forward
        quotedFrom quote fuel (text ++ done) q
      else quotedFrom quote fuel (c :: done) p.forward

/-- The text of a scalar whose opening quote comes next, and the place after its closing quote. -/
def quotedScalar (quote : Char) (p : Cursor) : Except ReadFault (List Char × Cursor) :=
  quotedFrom quote p.rest.length [] p.forward

end CodeOutline.Yaml
