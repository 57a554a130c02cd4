import CodeOutline.Java.Token
import Mathlib.Data.List.Basic

/-!
# Tokens in their places

The tokens of a source text and the gaps before them are the text, from its beginning on, and the row of
a token is the number of line feeds before its end (`covers_tokensFrom`). At a stray character the list
stops, and what follows is no token's.
-/

namespace CodeOutline.Java

/-- The text of a token with the gap before it. -/
def Token.chars (t : Token) : List Char :=
  t.gap.toList ++ t.text.toList

/-- The token without its comments, which become nodes of their own. -/
def Token.bare (t : Token) : Token :=
  { t with comments := [] }

/-- The tokens stand in the text from its beginning on, which is on the given row. -/
inductive Covers : Nat → List Char → List Token → Prop
  | nil (row : Nat) (cs : List Char) : Covers row cs []
  | cons {row : Nat} {rest : List Char} {t : Token} {ts : List Token}
    (endRow : t.endRow = row + t.chars.count '\n') (after : Covers t.endRow rest ts) :
    Covers row (t.chars ++ rest) (t :: ts)

namespace Covers

theorem first {row : Nat} {cs : List Char} {t : Token} {ts : List Token}
    (h : Covers row cs (t :: ts)) : ∃ rest, cs = t.chars ++ rest ∧
      t.endRow = row + t.chars.count '\n' ∧ Covers t.endRow rest ts := by
  cases h with
  | cons endRow after => exact ⟨_, rfl, endRow, after⟩

theorem split {row : Nat} {cs : List Char} {front back : List Token}
    (h : Covers row cs (front ++ back)) : ∃ rest, cs = front.flatMap Token.chars ++ rest ∧
      Covers (row + (front.flatMap Token.chars).count '\n') rest back := by
  induction front generalizing row cs with
  | nil => exact ⟨cs, rfl, h⟩
  | cons t front ih =>
    obtain ⟨_, rfl, endRow, after⟩ := h.first
    obtain ⟨rest, rfl, covers⟩ := ih after
    refine ⟨rest, by rw [List.flatMap_cons, List.append_assoc], ?_⟩
    rwa [List.flatMap_cons, List.count_append, ← Nat.add_assoc, ← endRow]

theorem bare {row : Nat} {cs : List Char} {ts : List Token} (h : Covers row cs ts) :
    Covers row cs (ts.map Token.bare) := by
  induction h with
  | nil => exact .nil _ _
  | @cons row rest t ts endRow after ih => exact .cons (t := t.bare) endRow ih

end Covers

/-- A scan whose gap goes back to the given row. -/
def Scan.Since (row : Nat) (s : Scan) : Prop :=
  s.row = row + s.gap.count '\n'

theorem Scan.Since.skip {row : Nat} {s : Scan} (h : s.Since row) (text : List Char) :
    (s.skip text).Since row := by
  rw [Scan.Since, Scan.skip, List.count_append, List.count_reverse, h, Nat.add_assoc,
    Nat.add_comm (s.gap.count _)]

theorem Scan.chars_token (s : Scan) (kind : TokenKind) (text : List Char) :
    (s.token kind text).chars = s.gap.reverse ++ text := by
  rw [Token.chars, Scan.token, String.toList_ofList, String.toList_ofList]

theorem Scan.Since.endRow_token {row : Nat} {s : Scan} (h : s.Since row) (kind : TokenKind)
    (text : List Char) :
    (s.token kind text).endRow = row + (s.token kind text).chars.count '\n' := by
  rw [chars_token, List.count_append, List.count_reverse, ← Nat.add_assoc, ← h]
  rfl

theorem covers_tokensFrom {row : Nat} {s : Scan} (cs : List Char) (h : s.Since row) :
    Covers row (s.gap.reverse ++ cs) (tokensFrom s cs) := by
  have cut (c : Char) (rest : List Char) (n : Nat) :
      c :: rest = (c :: rest.take n) ++ rest.drop n := by
    rw [List.cons_append, List.take_append_drop]
  have gap_skip (s : Scan) (text after : List Char) :
      s.gap.reverse ++ (text ++ after) = (s.skip text).gap.reverse ++ after := by
    rw [Scan.skip, List.reverse_append, List.reverse_reverse, List.append_assoc]
  fun_induction tokensFrom s cs generalizing row with
  | case1 s =>
    rw [← s.chars_token .finish, ← List.append_nil (Token.chars _)]
    exact .cons (h.endRow_token _ _) (.nil _ _)
  | case2 s c rest length _ text after _ =>
    next ih =>
      rw [cut c rest (length - 1), gap_skip]
      exact ih (h.skip text)
  | case3 s c rest length _ text after _ =>
    next ih =>
      rw [cut c rest (length - 1), gap_skip]
      exact ih (h.skip text)
  | case4 s c rest length _ text =>
    rw [cut c rest (length - 1), ← List.append_assoc, ← s.chars_token .stray]
    exact .cons (h.endRow_token _ _) (.nil _ _)
  | case5 s c rest length _ text after kind _ t _ =>
    next ih =>
      rw [cut c rest (length - 1), ← List.append_assoc, ← s.chars_token kind]
      exact .cons (h.endRow_token _ _) (ih rfl)

/-- The tokens of a source text stand in it, behind a byte order mark if there is one. -/
theorem covers_tokens (source : String) : ∃ mark cs, source.toList = mark ++ cs ∧
    mark.count '\n' = 0 ∧ Covers 0 cs (tokens source) := by
  unfold tokens
  split
  · next rest eq =>
    exact ⟨['\uFEFF'], rest, eq, by decide, covers_tokensFrom (s := {}) rest rfl⟩
  · exact ⟨[], _, rfl, rfl, covers_tokensFrom (s := {}) _ rfl⟩

end CodeOutline.Java
