import CodeOutline.Java.Rule
import CodeOutline.Proofs.Java.Token

/-!
# What a reader takes and makes

A reader goes on in the token list and leaves the nodes behind it alone. So whatever is known of the
cursor holds for the next part of a rule too, and what a node says can be read off the tokens between
the cursor at its beginning and the cursor at its end.
-/

namespace CodeOutline.Java

namespace Rule

variable {ν : Type} {grammar : ν → Rule ν} {fuel : Nat} {a b : Rule ν} {c c' : Cursor}

/-! ## Readings taken apart -/

theorem run_seq_ok : run grammar (fuel + 1) (seq a b) c = .ok c' ↔
    ∃ m, run grammar fuel a c = .ok m ∧ run grammar fuel b m = .ok c' := by
  rw [run]
  split
  · next m first => simp [first]
  · next reach first => simp [first]

theorem run_choice_ok (h : run grammar (fuel + 1) (choice a b) c = .ok c') :
    run grammar fuel a c = .ok c' ∨
      ∃ reach, run grammar fuel b { c with reach } = .ok c' := by
  rw [run] at h
  split at h
  · next first => exact .inl (h ▸ first)
  · exact .inr ⟨_, h⟩

theorem run_many_ok (h : run grammar (fuel + 1) (many a) c = .ok c') :
    (∃ reach, c' = { c with reach }) ∨
      ∃ m, run grammar fuel a c = .ok m ∧ run grammar fuel (many a) m = .ok c' := by
  rw [run] at h
  split at h
  · next m first =>
    split at h
    · exact .inl ⟨c.reach, (Except.ok.inj h).symm⟩
    · exact .inr ⟨m, first, h⟩
  · exact .inl ⟨_, (Except.ok.inj h).symm⟩

theorem run_node_ok {kind : Kind} (h : run grammar (fuel + 1) (node kind a) c = .ok c') :
    ∃ m, run grammar fuel a c.enter = .ok m ∧
      c' = c.leave m (.phrase kind "" m.endRow m.made.reverse) := by
  rw [run] at h
  split at h
  · next m inside => exact ⟨m, inside, (Except.ok.inj h).symm⟩
  · cases h

theorem run_span_ok {kind : Kind} (h : run grammar (fuel + 1) (span kind a) c = .ok c') :
    ∃ m, run grammar fuel a c.enter = .ok m ∧
      c' = c.leave m (.phrase kind (c.spanText (m.taken - c.taken)) m.endRow []) := by
  rw [run] at h
  split at h
  · next m inside => exact ⟨m, inside, (Except.ok.inj h).symm⟩
  · cases h

theorem run_token_ok {t : Terminal} (h : run grammar fuel (token t) c = .ok c') :
    c.take t = .ok c' := by
  cases fuel with
  | zero => cases h
  | succ fuel => exact h

/-- What it takes to take a token. -/
theorem take_ok {t : Terminal} (h : c.take t = .ok c') : ∃ next, c.tokens = next :: c'.tokens ∧
    t.accepts next ∧ c'.made = c.flush.made ∧ c'.taken = c.taken + 1 ∧ c'.endRow = next.endRow := by
  unfold Cursor.take at h
  split at h
  · next next rest tokens =>
    split at h
    · next accepted =>
      cases h
      exact ⟨next, tokens, accepted, rfl, rfl, rfl⟩
    · cases h
  · cases h

end Rule

/-! ## The text of tokens -/

/-- The source text of some tokens, without the gap before them. -/
def spanOf : List Token → String
  | [] => ""
  | first :: rest => rest.foldl (fun text t => text ++ t.gap ++ t.text) first.text

theorem spanOf_bare (tokens : List Token) : spanOf (tokens.map Token.bare) = spanOf tokens := by
  cases tokens with
  | nil => rfl
  | cons first rest =>
    rw [List.map_cons, spanOf, spanOf, List.foldl_map]
    rfl

theorem Cursor.spanText_eq (c : Cursor) (n : Nat) : c.spanText n = spanOf (c.tokens.take n) := by
  unfold Cursor.spanText
  cases c.tokens.take n with
  | nil => rfl
  | cons first rest => rfl

/-! ## The place of a cursor -/

namespace Cursor

variable {all : List Token} {c c' m : Cursor}

@[simp] theorem flush_taken (c : Cursor) : c.flush.taken = c.taken := by
  unfold flush
  split
  · split
    · rfl
    · rfl
  · rfl

@[simp] theorem flush_bare (c : Cursor) : c.flush.tokens.map Token.bare = c.tokens.map Token.bare := by
  unfold flush
  split
  · next tokens =>
    split
    · rfl
    · rw [tokens]
      rfl
  · rfl

/-- The comments that become nodes are the last ones made. -/
theorem flush_made (c : Cursor) :
    ∃ ks : List Comment, c.flush.made = ks.map Node.comment ++ c.made := by
  unfold flush
  split
  · next t rest tokens =>
    split
    · exact ⟨[], rfl⟩
    · exact ⟨t.comments.reverse, by rw [List.foldl_flip_cons_eq_append, List.map_reverse]⟩
  · exact ⟨[], rfl⟩

theorem mem_flush_made {node : Node} (h : node ∈ c.flush.made) :
    (∃ k, node = .comment k) ∨ node ∈ c.made := by
  obtain ⟨ks, made⟩ := c.flush_made
  rw [made, List.mem_append, List.mem_map] at h
  exact h.imp_left fun ⟨k, _, eq⟩ => ⟨k, eq.symm⟩

/-- The cursor stands in the list, behind the tokens that are taken. -/
def In (all : List Token) (c : Cursor) : Prop :=
  c.tokens.map Token.bare = (all.map Token.bare).drop c.taken

theorem In.flush (h : c.In all) : c.flush.In all := by
  rw [In, flush_bare, flush_taken, h]

theorem In.enter (h : c.In all) : c.enter.In all :=
  h.flush

@[simp] theorem enter_taken (c : Cursor) : c.enter.taken = c.taken :=
  c.flush_taken

end Cursor

namespace Rule

variable {ν : Type} {grammar : ν → Rule ν} {all : List Token} {c c' : Cursor}

theorem take_in {t : Terminal} (h : c.In all) (ok : c.take t = .ok c') :
    c'.In all ∧ c.taken ≤ c'.taken := by
  obtain ⟨next, tokens, -, -, taken, -⟩ := take_ok ok
  rw [Cursor.In, tokens, List.map_cons] at h
  rw [Cursor.In, taken, ← List.tail_drop, ← h, List.tail_cons]
  exact ⟨rfl, Nat.le_succ _⟩

/-- A reader goes on in the list. -/
theorem run_in {fuel : Nat} {r : Rule ν} (h : c.In all) (ok : run grammar fuel r c = .ok c') :
    c'.In all ∧ c.taken ≤ c'.taken := by
  induction fuel generalizing r c c' with
  | zero => cases ok
  | succ fuel ih =>
    cases r with
    | token t => exact take_in h ok
    | avoiding words =>
      rw [run] at ok
      split at ok
      · cases ok
      · cases ok
        exact ⟨h, Nat.le_refl _⟩
    | nothing =>
      cases ok
      exact ⟨h, Nat.le_refl _⟩
    | seq a b =>
      obtain ⟨m, first, second⟩ := run_seq_ok.1 ok
      obtain ⟨hm, less⟩ := ih h first
      obtain ⟨hc', less'⟩ := ih hm second
      exact ⟨hc', Nat.le_trans less less'⟩
    | choice a b =>
      rcases run_choice_ok ok with first | ⟨reach, second⟩
      · exact ih h first
      · exact ih (c := { c with reach }) h second
    | many a =>
      rcases run_many_ok ok with ⟨reach, rfl⟩ | ⟨m, first, more⟩
      · exact ⟨h, Nat.le_refl _⟩
      · obtain ⟨hm, less⟩ := ih h first
        obtain ⟨hc', less'⟩ := ih hm more
        exact ⟨hc', Nat.le_trans less less'⟩
    | node kind a =>
      obtain ⟨m, inside, rfl⟩ := run_node_ok ok
      obtain ⟨hm, less⟩ := ih h.enter inside
      exact ⟨hm, c.enter_taken ▸ less⟩
    | span kind a =>
      obtain ⟨m, inside, rfl⟩ := run_span_ok ok
      obtain ⟨hm, less⟩ := ih h.enter inside
      exact ⟨hm, c.enter_taken ▸ less⟩
    | ref name => exact ih h ok

end Rule

end CodeOutline.Java
