import CodeOutline.Text.Hexadecimal
import CodeOutline.Text.Letter
import CodeOutline.Text.Pattern

/-!
# Tokens of Java source

`tokens` cuts a source text into words, literals and symbols. A token knows the comments that stand
between it and the token before it, the raw text of that gap, and the rows on which it starts and
ends; rows are counted by line feeds alone.

Words are not divided into names and keywords here: many Java keywords are keywords only where the
grammar has a use for them. The symbol `>` is never joined with what follows, since `>>` closes two
argument lists as well as it shifts; `Token.joined` tells whether a symbol touches the one before it.

A text with embedded expressions, `"a \{x} b"`, becomes an opening piece, the tokens of each
expression, middle pieces and a closing piece. At a character that begins no token the list ends
with a stray token, which no rule of the grammar takes.
-/

namespace CodeOutline.Java

open CodeOutline.Text

/-- A comment with its delimiters, and the rows on which it starts and ends. -/
structure Comment where
  text : String
  row : Nat
  endRow : Nat
  deriving Repr, DecidableEq

/-- What a token is, before the grammar gives it a meaning. -/
inductive TokenKind where
  | word
  | number
  | character
  /-- A whole text literal. -/
  | text
  /-- A text literal up to its first embedded expression. -/
  | textOpen
  /-- A text literal between two embedded expressions. -/
  | textMiddle
  /-- A text literal after its last embedded expression. -/
  | textClose
  | symbol
  /-- The first character that begins no token. -/
  | stray
  /-- The end of the source. -/
  | finish
  deriving Repr, DecidableEq

/-- A piece of the source with what stands before it. -/
structure Token where
  kind : TokenKind
  text : String
  /-- The text between the token before and this one. -/
  gap : String
  /-- The comments of the gap. -/
  comments : List Comment
  row : Nat
  endRow : Nat
  deriving Repr, DecidableEq

/-- The token touches the one before it. -/
def Token.joined (t : Token) : Bool :=
  t.gap.isEmpty

/-- White space between tokens; that of other scripts does not count. -/
def isSpace (c : Char) : Bool :=
  c == ' ' || (0x09 ≤ c.toNat && c.toNat ≤ 0x0D)

/-- May begin a word. -/
def isWordStart (c : Char) : Bool :=
  isLetter c || c == '_' || c == '$'

/-- May continue a word. -/
def isWordPart (c : Char) : Bool :=
  isNamePart c || c == '$' || c == '¢'

/-! ## Numbers -/

/-- Digits of a class with underscores between them. -/
def digitsOf (isDigit : Char → Bool) : Pattern :=
  .many1 (.one isDigit) ++ .star (.char '_' ++ .many1 (.one isDigit))

/-- A decimal number without leading zeros. -/
def decimalDigits : Pattern :=
  .char '0' ||| (.one (fun c => c.isDigit && c != '0') ++
    .optional (.optional (.char '_') ++ .many1 .digit ++
      .star (.many1 (.char '_') ++ .many1 .digit)))

/-- An exponent introduced by one of the given letters. -/
def exponent (letters : String) : Pattern :=
  .among letters ++ .optional (.among "+-") ++ digitsOf Char.isDigit

/-- Every form of number literal: integers in four bases and floating-point numbers in two. -/
def numberLiteral : Pattern :=
  let long := Pattern.optional (.among "lL")
  let float := Pattern.optional (.among "fFdD")
  let hex := Pattern.char '0' ++ .among "xX"
  let hexDigits := digitsOf isHexDigit
  (decimalDigits ++ long)
  ||| (hex ++ hexDigits ++ long)
  ||| (.char '0' ++ .optional (.among "oO") ++ digitsOf (fun c => '0' ≤ c && c ≤ '7') ++ long)
  ||| (.char '0' ++ .among "bB" ++ digitsOf (fun c => c == '0' || c == '1') ++ long)
  ||| (digitsOf Char.isDigit ++ .char '.' ++ .optional (digitsOf Char.isDigit) ++
        .optional (exponent "eE") ++ float)
  ||| (.char '.' ++ digitsOf Char.isDigit ++ .optional (exponent "eE") ++ float)
  ||| (decimalDigits ++ exponent "eEpP" ++ float)
  ||| (decimalDigits ++ .optional (exponent "eE") ++ .among "fFdD")
  ||| (hex ++ ((hexDigits ++ .optional (.char '.')) |||
        (.optional hexDigits ++ .char '.' ++ hexDigits)) ++ .optional (exponent "eEpP" ++ float))

/-! ## Lengths of lexemes

Each function measures a lexeme from a given point on and answers with the number of characters,
or with `none` if the lexeme does not end. -/

/-- Up to and including the delimiter `*/`. -/
def blockLength : List Char → Option Nat
  | '*' :: '/' :: _ => some 2
  | _ :: rest => (blockLength rest).map (· + 1)
  | [] => none

/-- A character literal after its opening quote: at least one character and the closing quote.
`some` is true once a character has been read. -/
def characterLength (some? : Bool) : List Char → Option Nat
  | '\'' :: _ => if some? then some 1 else none
  | '\n' :: _ => none
  | '\\' :: _ :: rest => (characterLength true rest).map (· + 2)
  | _ :: rest => (characterLength true rest).map (· + 1)
  | [] => none

/-- How a piece of a text literal ends. -/
inductive PieceEnd where
  /-- With the closing quotes. -/
  | quote
  /-- With the opening of an embedded expression. -/
  | expression
  deriving Repr, DecidableEq

/-- A piece of a text literal; `block` tells whether three quotes close it or one. -/
def pieceLength (block : Bool) : List Char → Option (Nat × PieceEnd)
  | '\\' :: '\x7b' :: _ => some (2, .expression)
  | '\\' :: _ :: rest => (pieceLength block rest).map fun p => (p.1 + 2, p.2)
  | '"' :: rest =>
    if !block then some (1, .quote)
    else match rest with
      | '"' :: '"' :: _ => some (3, .quote)
      | _ => (pieceLength block rest).map fun p => (p.1 + 1, p.2)
  | _ :: rest => (pieceLength block rest).map fun p => (p.1 + 1, p.2)
  | [] => none

/-- Symbols of more than one character, longer ones before their beginnings. -/
def longSymbols : List (List Char) :=
  ["<<=", "...", "->", "::", "++", "--", "&&", "||", "==", "!=", "<=", "<<",
    "+=", "-=", "*=", "/=", "&=", "|=", "^=", "%=", "@interface"].map String.toList

/-- The symbols of one character. -/
def shortSymbols : List Char :=
  "()\x7b\x7d[];,.@=<>!~?:+-*/&|^%".toList

/-- The number of characters of the symbol that begins here. -/
def symbolLength (cs : List Char) : Option Nat :=
  match longSymbols.find? (·.isPrefixOf cs) with
  | some s => some s.length
  | none =>
    match cs with
    | c :: _ => if shortSymbols.contains c then some 1 else none
    | [] => none

/-! ## Lexemes -/

/-- What begins at a point of the source. -/
inductive LexemeKind where
  | space
  | comment
  | token (kind : TokenKind)
  deriving Repr, DecidableEq

/-- A text literal that waits for the end of an embedded expression. -/
structure OpenText where
  /-- Whether three quotes close it. -/
  block : Bool
  /-- The braces opened inside the expression. -/
  braces : Nat
  deriving Repr, DecidableEq

/-- The text literals around the current point, innermost first. -/
abbrev Nesting := List OpenText

/-- The lexeme that begins with a double quote, and the nesting after it. -/
def textLexeme (outer : Nesting) (cs : List Char) : TokenKind × Nat × Nesting :=
  let block := ['"', '"', '"'].isPrefixOf cs
  let quotes := if block then 3 else 1
  match pieceLength block (cs.drop quotes) with
  | some (n, .quote) => (.text, quotes + n, outer)
  | some (n, .expression) => (.textOpen, quotes + n, ⟨block, 0⟩ :: outer)
  | none => (.stray, 1, outer)

/-- The lexeme that begins with a closing brace: the end of an embedded expression takes the text
literal up again. -/
def closingLexeme (nesting : Nesting) (rest : List Char) : TokenKind × Nat × Nesting :=
  match nesting with
  | [] => (.symbol, 1, [])
  | inner :: outer =>
    match inner.braces with
    | braces + 1 => (.symbol, 1, { inner with braces } :: outer)
    | 0 =>
      match pieceLength inner.block rest with
      | some (n, .quote) => (.textClose, n + 1, outer)
      | some (n, .expression) => (.textMiddle, n + 1, inner :: outer)
      | none => (.stray, 1, outer)

/-- One more brace is open inside the innermost embedded expression. -/
def openBrace : Nesting → Nesting
  | [] => []
  | inner :: outer => { inner with braces := inner.braces + 1 } :: outer

/-- The kind and length of the lexeme that begins with `c`, and the nesting after it. -/
def lexeme (nesting : Nesting) (c : Char) (rest : List Char) : LexemeKind × Nat × Nesting :=
  let token (r : TokenKind × Nat × Nesting) : LexemeKind × Nat × Nesting := (.token r.1, r.2)
  if isSpace c then (.space, 1, nesting)
  else if c = '/' && rest.head? = some '/' then
    (.comment, 1 + (rest.takeWhile (· != '\n')).length, nesting)
  else if c = '/' && rest.head? = some '*' then
    match blockLength (rest.drop 1) with
    | some n => (.comment, n + 2, nesting)
    | none => token (.stray, 1, nesting)
  else if isWordStart c then token (.word, 1 + (rest.takeWhile isWordPart).length, nesting)
  else if c.isDigit || (c = '.' && (rest.head?.any Char.isDigit)) then
    token (.number, (numberLiteral.longest (c :: rest)).getD 1, nesting)
  else if c = '\'' then
    match characterLength false rest with
    | some n => token (.character, n + 1, nesting)
    | none => token (.stray, 1, nesting)
  else if c = '"' then token (textLexeme nesting (c :: rest))
  else if c = '\x7d' then token (closingLexeme nesting rest)
  else
    match symbolLength (c :: rest) with
    | some n => token (.symbol, n, if c = '\x7b' then openBrace nesting else nesting)
    | none => token (.stray, 1, nesting)

/-! ## The token list -/

/-- Where the scan stands: the nesting, the row, and the gap since the last token with its comments,
both in reverse. -/
structure Scan where
  nesting : Nesting := []
  row : Nat := 0
  gap : List Char := []
  comments : List Comment := []

/-- The token of the given text that ends the current gap. -/
def Scan.token (s : Scan) (kind : TokenKind) (text : List Char) : Token :=
  { kind
    text := String.ofList text
    gap := String.ofList s.gap.reverse
    comments := s.comments.reverse
    row := s.row
    endRow := s.row + text.count '\n' }

/-- The scan after a lexeme that belongs to the gap. -/
def Scan.skip (s : Scan) (text : List Char) : Scan :=
  { s with row := s.row + text.count '\n', gap := text.reverse ++ s.gap }

/-- The comment of the given text at the current point. -/
def Scan.comment (s : Scan) (text : List Char) : Comment :=
  ⟨String.ofList text, s.row, s.row + text.count '\n'⟩

/-- The tokens of the remaining text, the last one a `finish` or a `stray`. -/
def tokensFrom (s : Scan) : List Char → List Token
  | [] => [s.token .finish []]
  | c :: rest =>
    let (kind, length, nesting) := lexeme s.nesting c rest
    let text := c :: rest.take (length - 1)
    let after := rest.drop (length - 1)
    match kind with
    | .space => tokensFrom (s.skip text) after
    | .comment => tokensFrom { s.skip text with comments := s.comment text :: s.comments } after
    | .token .stray => [s.token .stray text]
    | .token kind =>
      let t := s.token kind text
      t :: tokensFrom { nesting, row := t.endRow } after
termination_by cs => cs.length
decreasing_by all_goals simp only [List.length_cons, List.length_drop]; omega

/-- The tokens of a source text. A byte order mark at its start is skipped. -/
def tokens (source : String) : List Token :=
  match source.toList with
  | '\uFEFF' :: rest => tokensFrom {} rest
  | cs => tokensFrom {} cs

end CodeOutline.Java
