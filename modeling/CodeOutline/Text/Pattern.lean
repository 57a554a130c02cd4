/-!
# Patterns over characters

Regular expressions, matched by derivatives: `p.derive c` accepts the rest of what `p` accepts after
`c`. `Pattern.accepts` tests a whole text and `Pattern.longest` measures the longest accepted
beginning of one.
-/

namespace CodeOutline.Text

/-- A set of character sequences. -/
inductive Pattern where
  /-- No sequence. -/
  | never
  /-- The empty sequence alone. -/
  | empty
  /-- One character of a class. -/
  | one (accepts : Char → Bool)
  | seq (first second : Pattern)
  | either (left right : Pattern)
  | star (body : Pattern)

namespace Pattern

instance : Append Pattern := ⟨seq⟩
instance : OrOp Pattern := ⟨either⟩

/-- A particular character. -/
def char (c : Char) : Pattern := one (· == c)

/-- One of the listed characters. -/
def among (cs : String) : Pattern := one cs.toList.contains

/-- A decimal digit. -/
def digit : Pattern := one Char.isDigit

/-- A particular text. -/
def literal (s : String) : Pattern :=
  s.toList.foldr (fun c p => char c ++ p) empty

/-- One of the listed texts. -/
def literals (ss : List String) : Pattern :=
  ss.foldr (fun s p => literal s ||| p) never

/-- The pattern or nothing. -/
def optional (p : Pattern) : Pattern := p ||| empty

/-- One or more times. -/
def many1 (p : Pattern) : Pattern := p ++ star p

/-- Exactly `n` times. -/
def times : Nat → Pattern → Pattern
  | 0, _ => empty
  | n + 1, p => p ++ times n p

/-- Whether the empty sequence is accepted. -/
def nullable : Pattern → Bool
  | never => false
  | empty => true
  | one _ => false
  | seq p q => p.nullable && q.nullable
  | either p q => p.nullable || q.nullable
  | star _ => true

/-- A sequence, with `never` and `empty` absorbed. -/
def mkSeq : Pattern → Pattern → Pattern
  | never, _ => never
  | empty, q => q
  | p, q => seq p q

/-- A choice, with `never` absorbed. -/
def mkEither : Pattern → Pattern → Pattern
  | never, q => q
  | p, never => p
  | p, q => either p q

/-- What may follow the character `c`. -/
def derive (c : Char) : Pattern → Pattern
  | never => never
  | empty => never
  | one accepts => if accepts c then empty else never
  | seq p q =>
    if p.nullable then mkEither (mkSeq (p.derive c) q) (q.derive c) else mkSeq (p.derive c) q
  | either p q => mkEither (p.derive c) (q.derive c)
  | star p => mkSeq (p.derive c) (star p)

/-- Whether the whole text is accepted. -/
def accepts (p : Pattern) : List Char → Bool
  | [] => p.nullable
  | c :: rest => (p.derive c).accepts rest

/-- The number of characters in the longest accepted beginning of the text. -/
def longest : Pattern → List Char → Option Nat
  | never, _ => none
  | p, [] => if p.nullable then some 0 else none
  | p, c :: rest =>
    match (p.derive c).longest rest with
    | some n => some (n + 1)
    | none => if p.nullable then some 0 else none

end Pattern

end CodeOutline.Text
