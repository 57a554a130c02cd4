import CodeOutline.Java.Node

/-!
# Grammar rules

A `Rule` describes phrases over tokens. Rules are read from left to right; of two alternatives the
first that fits is taken, and a repetition takes as much as it can. `Rule.run` reads the beginning of
a token list with a rule and collects the nodes that the rule makes.

A reader also keeps the furthest token that some alternative could not take. When the whole source
does not fit the grammar, that is the first wrong token.
-/

namespace CodeOutline.Java

/-- A test on one token. -/
inductive Terminal where
  /-- One of the listed words. -/
  | words (texts : List String)
  /-- Any word but the listed ones. -/
  | name (except : List String)
  /-- One of the listed symbols. -/
  | symbols (texts : List String)
  /-- A symbol that touches the token before it. -/
  | joined (text : String)
  /-- A word that touches the token before it. -/
  | joinedWord (text : String)
  | literal (kind : TokenKind)
  | finish
  deriving Repr, DecidableEq

/-- Whether the terminal takes a token. -/
def Terminal.accepts : Terminal → Token → Bool
  | words texts, t => t.kind = .word && texts.contains t.text
  | name except, t => t.kind = .word && !except.contains t.text
  | symbols texts, t => t.kind = .symbol && texts.contains t.text
  | joined text, t => t.kind = .symbol && t.text = text && t.joined
  | joinedWord text, t => t.kind = .word && t.text = text && t.joined
  | literal kind, t => t.kind = kind
  | finish, t => t.kind = .finish

/-- A description of phrases, over the names `ν` of other rules. -/
inductive Rule (ν : Type) where
  | token (t : Terminal)
  /-- Takes nothing, and fits unless the next token is one of the listed words. -/
  | avoiding (words : List String)
  | nothing
  | seq (first second : Rule ν)
  /-- The second alternative is tried only where the first does not fit. -/
  | choice (first second : Rule ν)
  | many (body : Rule ν)
  /-- Makes a node of what the body takes. -/
  | node (kind : Kind) (body : Rule ν)
  /-- Makes a node without children that keeps the text of what the body takes. -/
  | span (kind : Kind) (body : Rule ν)
  | ref (name : ν)

namespace Rule

variable {ν : Type}

instance : Append (Rule ν) := ⟨seq⟩
instance : OrOp (Rule ν) := ⟨choice⟩

def word (text : String) : Rule ν := token (.words [text])
def words (texts : List String) : Rule ν := token (.words texts)
def symbol (text : String) : Rule ν := token (.symbols [text])
def symbols (texts : List String) : Rule ν := token (.symbols texts)
def name (except : List String) : Rule ν := token (.name except)

def opt (r : Rule ν) : Rule ν := r ||| nothing
def many1 (r : Rule ν) : Rule ν := r ++ many r

/-- One or more, with the separator between each two. -/
def separated (r : Rule ν) (separator : String) : Rule ν :=
  r ++ many (symbol separator ++ r)

end Rule

/-- The point that a reader has come to. -/
structure Cursor where
  tokens : List Token
  /-- The nodes made since the innermost open node began, last first. -/
  made : List Node := []
  /-- The number of tokens taken. -/
  taken : Nat := 0
  /-- The row on which the last token taken ends. -/
  endRow : Nat := 0
  /-- The number of tokens before the furthest one that some alternative could not take. -/
  reach : Nat := 0

namespace Cursor

/-- Makes nodes of the comments before the next token. -/
def flush (c : Cursor) : Cursor :=
  match c.tokens with
  | t :: rest =>
    if t.comments.isEmpty then c
    else { c with
      tokens := { t with comments := [] } :: rest
      made := t.comments.foldl (fun made k => .comment k :: made) c.made }
  | [] => c

/-- The next token cannot be taken. -/
def stuck (c : Cursor) : Nat :=
  max c.reach c.taken

/-- Takes the next token if the terminal accepts it. -/
def take (c : Cursor) (t : Terminal) : Except Nat Cursor :=
  match c.tokens with
  | next :: rest =>
    if t.accepts next then
      .ok { c.flush with tokens := rest, taken := c.taken + 1, endRow := next.endRow }
    else .error c.stuck
  | [] => .error c.stuck

/-- The next token is one of the listed words. -/
def startsWithWord (c : Cursor) (words : List String) : Bool :=
  match c.tokens with
  | next :: _ => next.kind = .word && words.contains next.text
  | [] => false

/-- The source text of the first `n` tokens, without the gap before them. -/
def spanText (c : Cursor) (n : Nat) : String :=
  match c.tokens.take n with
  | [] => ""
  | first :: rest => rest.foldl (fun text t => text ++ t.gap ++ t.text) first.text

/-- A cursor for the inside of a node that begins here. -/
def enter (c : Cursor) : Cursor :=
  { c.flush with made := [] }

/-- The cursor after a node that began at `start`, with the node made. -/
def leave (start inside : Cursor) (node : Node) : Cursor :=
  { inside with made := node :: start.flush.made }

end Cursor

namespace Rule

variable {ν : Type}

/-- Reads a phrase at the cursor. The error is the reach. `fuel` bounds the depth of the reading;
where it runs out the rule does not fit. -/
def run (grammar : ν → Rule ν) : Nat → Rule ν → Cursor → Except Nat Cursor
  | 0, _, c => .error c.stuck
  | _ + 1, token t, c => c.take t
  | _ + 1, avoiding words, c => if c.startsWithWord words then .error c.stuck else .ok c
  | _ + 1, nothing, c => .ok c
  | fuel + 1, seq a b, c =>
    match run grammar fuel a c with
    | .ok c' => run grammar fuel b c'
    | .error reach => .error reach
  | fuel + 1, choice a b, c =>
    match run grammar fuel a c with
    | .ok c' => .ok c'
    | .error reach => run grammar fuel b { c with reach }
  | fuel + 1, many a, c =>
    match run grammar fuel a c with
    | .ok c' => if c'.taken = c.taken then .ok c else run grammar fuel (many a) c'
    | .error reach => .ok { c with reach }
  | fuel + 1, node kind a, c =>
    match run grammar fuel a c.enter with
    | .ok c' => .ok (c.leave c' (.phrase kind "" c'.endRow c'.made.reverse))
    | .error reach => .error reach
  | fuel + 1, span kind a, c =>
    match run grammar fuel a c.enter with
    | .ok c' => .ok (c.leave c' (.phrase kind (c.spanText (c'.taken - c.taken)) c'.endRow []))
    | .error reach => .error reach
  | fuel + 1, ref name, c => run grammar fuel (grammar name) c

end Rule

end CodeOutline.Java
