import CodeOutline.Proofs.Java.Run

/-!
# Readings put together

`Rule.Takes` says which tokens a rule takes in front of others and which nodes it makes of them, and
`Rule.Refuses` that it fits nowhere at the beginning of a token list; both from some fuel on. Each way to
put rules together has its lemma. Where the next token alone decides, `Rule.look` computes the answer.
-/

namespace CodeOutline.Java

/-- The row on which the last of some tokens ends. -/
def rowBehind (row : Nat) (ts : List Token) : Nat :=
  (ts.getLast?.map (·.endRow)).getD row

theorem rowBehind_append (row : Nat) (ts us : List Token) :
    rowBehind row (ts ++ us) = rowBehind (rowBehind row ts) us := by
  unfold rowBehind
  rw [List.getLast?_append]
  cases us.getLast? <;> rfl

theorem rowBehind_cons (row : Nat) (t : Token) (ts : List Token) :
    rowBehind row (t :: ts) = rowBehind t.endRow ts :=
  rowBehind_append row [t] ts

/-- A comment before the first token has become a node. -/
def bareFirst : List Token → List Token
  | [] => []
  | t :: ts => t.bare :: ts

namespace Cursor

/-- The cursor behind the tokens `ts`, with nodes made of them. -/
def past (c : Cursor) (ts rest : List Token) (nodes : List Node) : Cursor :=
  { c with
    tokens := rest
    taken := c.taken + ts.length
    endRow := rowBehind c.endRow ts
    made := nodes.reverse ++ c.made }

theorem past_past (c : Cursor) (ts us rest rest' : List Token) (nodes more : List Node)
    (reach reach' : Nat) :
    { ({ c.past ts rest' nodes with reach } : Cursor).past us rest more with reach := reach' } =
      ({ c.past (ts ++ us) rest (nodes ++ more) with reach := reach' } : Cursor) := by
  simp only [past, List.length_append, Nat.add_assoc, rowBehind_append, List.reverse_append,
    List.append_assoc]

theorem past_nil {c : Cursor} {rest : List Token} (h : c.tokens = rest) : c.past [] rest [] = c := by
  subst h
  rfl

theorem flush_eq (c : Cursor) : c.flush = { c with
    tokens := bareFirst c.tokens
    made := ((c.tokens.head?.map (·.comments)).getD []).reverse.map Node.comment ++ c.made } := by
  obtain ⟨tokens, made, taken, endRow, reach⟩ := c
  cases tokens with
  | nil => rfl
  | cons t rest =>
    unfold flush
    dsimp only
    split
    · next none =>
      have bare : t.bare = t := by rw [Token.bare, ← List.isEmpty_iff.1 none]
      simp only [List.head?_cons, Option.map_some, Option.getD_some, List.isEmpty_iff.1 none,
        bareFirst, bare, List.reverse_nil, List.map_nil, List.nil_append]
    · rw [List.foldl_flip_cons_eq_append, List.map_reverse]
      rfl

theorem enter_eq (c : Cursor) : c.enter = { c with tokens := bareFirst c.tokens, made := [] } := by
  rw [enter, flush_eq]

end Cursor

namespace Rule

variable {ν : Type} {grammar : ν → Rule ν} {a b r : Rule ν} {n k : Nat}
variable {t : Token} {ts us rest : List Token} {nodes more : List Node}

/-- The rule takes the tokens `ts` in front of the others and makes nodes of them. -/
def Takes (grammar : ν → Rule ν) (n : Nat) (r : Rule ν) (ts rest : List Token) (nodes : List Node) :
    Prop :=
  ∀ fuel, n ≤ fuel → ∀ c : Cursor, c.tokens = ts ++ rest →
    ∃ reach, run grammar fuel r c = .ok { c.past ts rest nodes with reach }

/-- The rule does not fit in front of the tokens. -/
def Refuses (grammar : ν → Rule ν) (n : Nat) (r : Rule ν) (ts : List Token) : Prop :=
  ∀ fuel, n ≤ fuel → ∀ c : Cursor, c.tokens = ts → ∃ reach, run grammar fuel r c = .error reach

theorem Takes.mono (h : Takes grammar n r ts rest nodes) (less : n ≤ k) :
    Takes grammar k r ts rest nodes :=
  fun fuel enough => h fuel (Nat.le_trans less enough)

theorem Refuses.mono (h : Refuses grammar n r ts) (less : n ≤ k) : Refuses grammar k r ts :=
  fun fuel enough => h fuel (Nat.le_trans less enough)

/-- It is enough to look one step into the rule. -/
theorem Takes.step (h : ∀ fuel, n ≤ fuel → ∀ c : Cursor, c.tokens = ts ++ rest →
    ∃ reach, run grammar (fuel + 1) r c = .ok { c.past ts rest nodes with reach }) :
    Takes grammar (n + 1) r ts rest nodes := by
  intro fuel enough
  obtain ⟨fuel, rfl⟩ := Nat.exists_eq_add_of_le' enough
  exact h (fuel + n) (Nat.le_add_left _ _)

theorem Refuses.step (h : ∀ fuel, n ≤ fuel → ∀ c : Cursor, c.tokens = ts →
    ∃ reach, run grammar (fuel + 1) r c = .error reach) : Refuses grammar (n + 1) r ts := by
  intro fuel enough
  obtain ⟨fuel, rfl⟩ := Nat.exists_eq_add_of_le' enough
  exact h (fuel + n) (Nat.le_add_left _ _)

/-! ## Sequences and alternatives -/

theorem Takes.seq (first : Takes grammar n a ts (us ++ rest) nodes)
    (second : Takes grammar k b us rest more) :
    Takes grammar (max n k + 1) (seq a b) (ts ++ us) rest (nodes ++ more) := by
  refine Takes.step fun fuel enough c tokens => ?_
  rw [List.append_assoc] at tokens
  obtain ⟨reach₁, first⟩ := first fuel (Nat.le_trans (Nat.le_max_left n k) enough) c tokens
  obtain ⟨reach₂, second⟩ := second fuel (Nat.le_trans (Nat.le_max_right n k) enough)
    { c.past ts (us ++ rest) nodes with reach := reach₁ } rfl
  rw [Cursor.past_past] at second
  exact ⟨reach₂, run_seq_ok.2 ⟨_, first, second⟩⟩

/-- A part behind that takes nothing. -/
theorem Takes.seq_idle (first : Takes grammar n a ts rest nodes)
    (second : Takes grammar k b [] rest []) :
    Takes grammar (max n k + 1) (Rule.seq a b) ts rest nodes := by
  have both : Takes grammar _ (Rule.seq a b) (ts ++ []) rest (nodes ++ []) := first.seq second
  rwa [List.append_nil, List.append_nil] at both

/-- A part in front that takes nothing. -/
theorem Takes.idle_seq (first : Takes grammar n a [] (ts ++ rest) [])
    (second : Takes grammar k b ts rest nodes) :
    Takes grammar (max n k + 1) (Rule.seq a b) ts rest nodes := by
  have both : Takes grammar _ (Rule.seq a b) ([] ++ ts) rest ([] ++ nodes) := first.seq second
  exact both

theorem Refuses.seq_left (first : Refuses grammar n a ts) : Refuses grammar (n + 1) (seq a b) ts := by
  refine Refuses.step fun fuel enough c tokens => ?_
  obtain ⟨reach, first⟩ := first fuel enough c tokens
  exact ⟨reach, by rw [run, first]⟩

theorem Refuses.seq_right (first : Takes grammar n a ts us nodes) (second : Refuses grammar k b us) :
    Refuses grammar (max n k + 1) (seq a b) (ts ++ us) := by
  refine Refuses.step fun fuel enough c tokens => ?_
  obtain ⟨reach₁, first⟩ := first fuel (Nat.le_trans (Nat.le_max_left n k) enough) c tokens
  obtain ⟨reach₂, second⟩ := second fuel (Nat.le_trans (Nat.le_max_right n k) enough)
    { c.past ts us nodes with reach := reach₁ } rfl
  refine ⟨reach₂, ?_⟩
  rw [run, first]
  exact second

theorem Takes.left (first : Takes grammar n a ts rest nodes) :
    Takes grammar (n + 1) (choice a b) ts rest nodes := by
  refine Takes.step fun fuel enough c tokens => ?_
  obtain ⟨reach, first⟩ := first fuel enough c tokens
  exact ⟨reach, by rw [run, first]⟩

theorem Takes.right (first : Refuses grammar n a (ts ++ rest))
    (second : Takes grammar k b ts rest nodes) :
    Takes grammar (max n k + 1) (choice a b) ts rest nodes := by
  refine Takes.step fun fuel enough c tokens => ?_
  obtain ⟨reach₁, first⟩ := first fuel (Nat.le_trans (Nat.le_max_left n k) enough) c tokens
  obtain ⟨reach₂, second⟩ := second fuel (Nat.le_trans (Nat.le_max_right n k) enough)
    { c with reach := reach₁ } tokens
  refine ⟨reach₂, ?_⟩
  rw [run, first]
  exact second

theorem Refuses.choice (first : Refuses grammar n a ts) (second : Refuses grammar k b ts) :
    Refuses grammar (max n k + 1) (choice a b) ts := by
  refine Refuses.step fun fuel enough c tokens => ?_
  obtain ⟨reach₁, first⟩ := first fuel (Nat.le_trans (Nat.le_max_left n k) enough) c tokens
  obtain ⟨reach₂, second⟩ := second fuel (Nat.le_trans (Nat.le_max_right n k) enough)
    { c with reach := reach₁ } tokens
  refine ⟨reach₂, ?_⟩
  rw [run, first]
  exact second

theorem Takes.nothing : Takes grammar 1 nothing [] rest [] :=
  Takes.step (n := 0) fun _ _ c tokens => ⟨c.reach, congrArg Except.ok (c.past_nil tokens).symm⟩

/-! ## Repetitions -/

theorem Takes.many_stop (stop : Refuses grammar n a rest) :
    Takes grammar (n + 1) (many a) [] rest [] := by
  refine Takes.step fun fuel enough c tokens => ?_
  change c.tokens = rest at tokens
  obtain ⟨reach, stop⟩ := stop fuel enough c tokens
  refine ⟨reach, ?_⟩
  rw [run, stop, c.past_nil tokens]

/-- A repetition also ends with a round that takes nothing. -/
theorem Takes.many_idle (round : Takes grammar n a [] rest nodes) :
    Takes grammar (n + 1) (many a) [] rest [] := by
  refine Takes.step fun fuel enough c tokens => ?_
  change c.tokens = rest at tokens
  obtain ⟨reach, round⟩ := round fuel enough c tokens
  refine ⟨c.reach, ?_⟩
  rw [run, round, c.past_nil tokens]
  exact if_pos rfl

theorem Takes.many_more (first : Takes grammar n a ts (us ++ rest) nodes) (some : ts ≠ [])
    (others : Takes grammar k (many a) us rest more) :
    Takes grammar (max n k + 1) (many a) (ts ++ us) rest (nodes ++ more) := by
  refine Takes.step fun fuel enough c tokens => ?_
  rw [List.append_assoc] at tokens
  obtain ⟨reach₁, first⟩ := first fuel (Nat.le_trans (Nat.le_max_left n k) enough) c tokens
  obtain ⟨reach₂, others⟩ := others fuel (Nat.le_trans (Nat.le_max_right n k) enough)
    { c.past ts (us ++ rest) nodes with reach := reach₁ } rfl
  have further : c.taken + ts.length ≠ c.taken := by
    have := List.length_pos_iff.2 some
    omega
  rw [Cursor.past_past] at others
  refine ⟨reach₂, ?_⟩
  rw [run, first]
  exact (if_neg further).trans others

theorem Takes.ref {name : ν} (inside : Takes grammar n (grammar name) ts rest nodes) :
    Takes grammar (n + 1) (ref name) ts rest nodes :=
  Takes.step inside

theorem Refuses.ref {name : ν} (inside : Refuses grammar n (grammar name) ts) :
    Refuses grammar (n + 1) (ref name) ts :=
  Refuses.step inside

/-! ## Tokens and nodes -/

section Tokens

variable {kind : Kind}

theorem Takes.token {terminal : Terminal} (bare : t.comments = []) (fits : terminal.accepts t) :
    Takes grammar 1 (token terminal) [t] rest [] := by
  refine Takes.step (n := 0) fun fuel _ c tokens => ⟨c.reach, ?_⟩
  have flush := c.flush_eq
  rw [tokens] at flush
  rw [run, Cursor.take, tokens]
  simp only [List.singleton_append, fits, if_true, flush, List.head?_cons, Option.map_some,
    Option.getD_some, bare, List.reverse_nil, List.map_nil, List.nil_append]
  rfl

/-- The cursor behind a node that takes some tokens. -/
theorem leave_past (c : Cursor) (reach : Nat) (node : Node) (tokens : c.tokens = t :: ts ++ rest) :
    c.leave { c.enter.past (t.bare :: ts) rest nodes with reach } node =
      { c.past (t :: ts) rest (t.comments.map Node.comment ++ [node]) with reach } := by
  rw [Cursor.leave, Cursor.flush_eq, Cursor.enter_eq, tokens]
  simp only [Cursor.past, List.cons_append, List.head?_cons, Option.map_some, Option.getD_some,
    List.map_reverse, List.reverse_append, List.reverse_singleton, rowBehind_cons, List.length_cons]
  rfl

/-- What is made inside a node becomes its children; the comments before it stand before it. -/
theorem Takes.node (kind : Kind) (inside : Takes grammar n a (t.bare :: ts) rest nodes) :
    Takes grammar (n + 1) (node kind a) (t :: ts) rest
      (t.comments.map Node.comment ++ [.phrase kind "" (rowBehind t.endRow ts) nodes]) := by
  refine Takes.step fun fuel enough c tokens => ?_
  have entered : c.enter.tokens = t.bare :: ts ++ rest := by
    rw [Cursor.enter_eq, tokens]
    rfl
  obtain ⟨reach, inside⟩ := inside fuel enough c.enter entered
  refine ⟨reach, ?_⟩
  rw [run, inside]
  simp only [leave_past c reach _ tokens]
  rw [Cursor.enter_eq]
  simp only [Cursor.past, List.append_nil, List.reverse_reverse, rowBehind_cons]
  rfl

theorem Refuses.node (inside : Refuses grammar n a (bareFirst ts)) :
    Refuses grammar (n + 1) (node kind a) ts := by
  refine Refuses.step fun fuel enough c tokens => ?_
  obtain ⟨reach, inside⟩ := inside fuel enough c.enter (by rw [Cursor.enter_eq, tokens])
  exact ⟨reach, by rw [run, inside]⟩

/-- A span keeps the text of what is taken inside. -/
theorem Takes.span (kind : Kind) (inside : Takes grammar n a (t.bare :: ts) rest nodes) :
    Takes grammar (n + 1) (span kind a) (t :: ts) rest (t.comments.map Node.comment ++
      [.phrase kind (spanOf (t :: ts)) (rowBehind t.endRow ts) []]) := by
  refine Takes.step fun fuel enough c tokens => ?_
  have entered : c.enter.tokens = t.bare :: ts ++ rest := by
    rw [Cursor.enter_eq, tokens]
    rfl
  obtain ⟨reach, inside⟩ := inside fuel enough c.enter entered
  have taken : (c.enter.past (t.bare :: ts) rest nodes).taken - c.taken = (t :: ts).length := by
    rw [Cursor.enter_eq]
    exact Nat.add_sub_cancel_left _ _
  refine ⟨reach, ?_⟩
  rw [run, inside]
  simp only [leave_past c reach _ tokens, taken, c.spanText_eq, tokens, List.take_left]
  rw [Cursor.enter_eq]
  simp only [Cursor.past, rowBehind_cons]
  rfl

theorem Refuses.span (inside : Refuses grammar n a (bareFirst ts)) :
    Refuses grammar (n + 1) (span kind a) ts := by
  refine Refuses.step fun fuel enough c tokens => ?_
  obtain ⟨reach, inside⟩ := inside fuel enough c.enter (by rw [Cursor.enter_eq, tokens])
  exact ⟨reach, by rw [run, inside]⟩

theorem Takes.node_bare (kind : Kind) (bare : t.comments = [])
    (inside : Takes grammar n a (t :: ts) rest nodes) :
    Takes grammar (n + 1) (.node kind a) (t :: ts) rest
      [.phrase kind "" (rowBehind t.endRow ts) nodes] := by
  have same : t.bare = t := by rw [Token.bare, ← bare]
  have whole := Takes.node kind (same.symm ▸ inside)
  rwa [bare] at whole

theorem Takes.span_bare (kind : Kind) (bare : t.comments = [])
    (inside : Takes grammar n a (t :: ts) rest nodes) :
    Takes grammar (n + 1) (.span kind a) (t :: ts) rest
      [.phrase kind (spanOf (t :: ts)) (rowBehind t.endRow ts) []] := by
  have same : t.bare = t := by rw [Token.bare, ← bare]
  have whole := Takes.span kind (same.symm ▸ inside)
  rwa [bare] at whole

end Tokens

/-! ## Rules that the next token decides -/

/-- What the next token says of a rule. -/
inductive Look where
  /-- It does not fit. -/
  | refuses
  /-- It takes nothing. -/
  | passes
  /-- That depends on what follows. -/
  | depends
  deriving DecidableEq

end Rule

/-- Whether the terminal may take a token of the kind, of which also the text may be known. -/
def Terminal.mayTake (kind : TokenKind) (text : Option String) : Terminal → Bool
  | words texts => kind = .word && text.all texts.contains
  | name except => kind = .word && text.all (!except.contains ·)
  | symbols texts => kind = .symbol && text.all texts.contains
  | joined symbol => kind = .symbol && text.all (· = symbol)
  | joinedWord word => kind = .word && text.all (· = word)
  | literal k => kind = k
  | finish => kind = .finish

theorem Terminal.mayTake_of_accepts {terminal : Terminal} {t : Token} {text : Option String}
    (h : terminal.accepts t) (known : ∀ x ∈ text, x = t.text) : terminal.mayTake t.kind text := by
  have all {p : String → Bool} (hp : p t.text) : text.all p = true :=
    (Option.all_eq_true _ _).2 fun x hx => known x hx ▸ hp
  cases terminal with
  | words texts | name except | symbols texts =>
    obtain ⟨kind, listed⟩ := Bool.and_eq_true_iff.1 h
    exact Bool.and_eq_true_iff.2 ⟨kind, all listed⟩
  | joined symbol | joinedWord word =>
    obtain ⟨fits, -⟩ := Bool.and_eq_true_iff.1 h
    obtain ⟨kind, same⟩ := Bool.and_eq_true_iff.1 fits
    exact Bool.and_eq_true_iff.2 ⟨kind, all same⟩
  | literal | finish => exact h

namespace Rule

variable {ν : Type}

/-- Looks at the beginnings of a rule, down to the given depth. -/
def look (grammar : ν → Rule ν) (kind : TokenKind) (text : Option String) : Nat → Rule ν → Look
  | 0, _ => .depends
  | _ + 1, token t => if t.mayTake kind text then .depends else .refuses
  | _ + 1, avoiding words =>
    if kind = .word then
      match text with
      | some x => if words.contains x then .refuses else .passes
      | none => .depends
    else .passes
  | _ + 1, nothing => .passes
  | depth + 1, seq a b =>
    match look grammar kind text depth a with
    | .refuses => .refuses
    | .passes => look grammar kind text depth b
    | .depends => .depends
  | depth + 1, choice a b =>
    match look grammar kind text depth a with
    | .refuses => look grammar kind text depth b
    | .passes => .passes
    | .depends => .depends
  | depth + 1, many a =>
    match look grammar kind text depth a with
    | .refuses | .passes => .passes
    | .depends => .depends
  | depth + 1, node _ a | depth + 1, span _ a =>
    match look grammar kind text depth a with
    | .refuses => .refuses
    | .passes | .depends => .depends
  | depth + 1, ref name => look grammar kind text depth (grammar name)

section Look

variable {grammar : ν → Rule ν} {t : Token} {rest : List Token} {text : Option String}

theorem refuses_token {terminal : Terminal} (known : ∀ x ∈ text, x = t.text)
    (no : terminal.mayTake t.kind text = false) (n : Nat) :
    Refuses grammar n (token terminal) (t :: rest) := by
  have unfit : ¬ terminal.accepts t := fun fits => by
    rw [Terminal.mayTake_of_accepts fits known] at no
    cases no
  intro fuel _ c tokens
  cases fuel with
  | zero => exact ⟨_, rfl⟩
  | succ fuel =>
    refine ⟨c.stuck, ?_⟩
    rw [run, Cursor.take, tokens]
    exact if_neg unfit

theorem avoiding_of_starts {words : List String} {starts : Bool}
    (h : (t.kind = .word && words.contains t.text) = starts) (n : Nat) :
    (starts = true → Refuses grammar (n + 1) (avoiding words) (t :: rest)) ∧
      (starts = false → Takes grammar (n + 1) (avoiding words) [] (t :: rest) []) := by
  have starts_eq (c : Cursor) (tokens : c.tokens = t :: rest) : c.startsWithWord words = starts := by
    rw [Cursor.startsWithWord, tokens, ← h]
  refine ⟨?_, ?_⟩
  · rintro rfl
    refine Refuses.step fun fuel _ c tokens => ⟨c.stuck, ?_⟩
    rw [run, starts_eq c tokens]
    rfl
  · rintro rfl
    refine Takes.step fun fuel _ c tokens => ⟨c.reach, ?_⟩
    rw [run, starts_eq c tokens]
    exact congrArg Except.ok (c.past_nil tokens).symm

/-- What the look says is so. -/
theorem look_sound (known : ∀ x ∈ text, x = t.text) (depth : Nat) (r : Rule ν) :
    (look grammar t.kind text depth r = .refuses → Refuses grammar depth r (t :: rest)) ∧
      (look grammar t.kind text depth r = .passes → Takes grammar depth r [] (t :: rest) []) := by
  induction depth generalizing r t with
  | zero => exact ⟨nofun, nofun⟩
  | succ depth ih =>
    cases r with
    | token terminal =>
      rw [look]
      split
      · exact ⟨nofun, nofun⟩
      · next no => exact ⟨fun _ => refuses_token known (Bool.not_eq_true _ ▸ no) _, nofun⟩
    | avoiding words =>
      unfold look
      split
      · next word =>
        split
        · next x =>
          have starts : (t.kind = .word && words.contains t.text) = words.contains x := by
            rw [decide_eq_true word, Bool.true_and, known x rfl]
          have both : (_ → Refuses grammar (depth + 1) (avoiding words) (t :: rest)) ∧
              (_ → Takes grammar (depth + 1) (avoiding words) [] (t :: rest) []) :=
            avoiding_of_starts starts depth
          obtain ⟨refuses, takes⟩ := both
          split
          · next listed => exact ⟨fun _ => refuses listed, nofun⟩
          · next free => exact ⟨nofun, fun _ => takes (Bool.eq_false_iff.2 free)⟩
        · exact ⟨nofun, nofun⟩
      · next other =>
        have starts : (t.kind = .word && words.contains t.text) = false := by
          rw [decide_eq_false other, Bool.false_and]
        exact ⟨nofun, fun _ => (avoiding_of_starts starts depth).2 rfl⟩
    | nothing => exact ⟨nofun, fun _ => Takes.nothing.mono (Nat.succ_le_succ (Nat.zero_le _))⟩
    | seq a b =>
      rw [look]
      split
      · next first => exact ⟨fun _ => ((ih known a).1 first).seq_left, nofun⟩
      · next first =>
        refine ⟨fun second => ?_, fun second => ?_⟩
        · have both := Refuses.seq_right ((ih known a).2 first) ((ih known b).1 second)
          exact both.mono (by omega)
        · have both := Takes.idle_seq ((ih known a).2 first) ((ih known b).2 second)
          exact both.mono (by omega)
      · exact ⟨nofun, nofun⟩
    | choice a b =>
      rw [look]
      split
      · next first =>
        refine ⟨fun second => ?_, fun second => ?_⟩
        · exact (Refuses.choice ((ih known a).1 first) ((ih known b).1 second)).mono (by omega)
        · exact (Takes.right ((ih known a).1 first) ((ih known b).2 second)).mono (by omega)
      · next first => exact ⟨nofun, fun _ => ((ih known a).2 first).left⟩
      · exact ⟨nofun, nofun⟩
    | many a =>
      rw [look]
      split
      · next round => exact ⟨nofun, fun _ => .many_stop ((ih known a).1 round)⟩
      · next round => exact ⟨nofun, fun _ => .many_idle ((ih known a).2 round)⟩
      · exact ⟨nofun, nofun⟩
    | node k a =>
      rw [look]
      split
      · next inside => exact ⟨fun _ => Refuses.node ((ih (t := t.bare) known a).1 inside), nofun⟩
      · exact ⟨nofun, nofun⟩
      · exact ⟨nofun, nofun⟩
    | span k a =>
      rw [look]
      split
      · next inside => exact ⟨fun _ => Refuses.span ((ih (t := t.bare) known a).1 inside), nofun⟩
      · exact ⟨nofun, nofun⟩
      · exact ⟨nofun, nofun⟩
    | ref name =>
      rw [look]
      exact ⟨fun inside => ((ih known _).1 inside).ref, fun inside => ((ih known _).2 inside).ref⟩

theorem Refuses.of_look {depth : Nat} {r : Rule ν}
    (h : look grammar t.kind (some t.text) depth r = .refuses) :
    Refuses grammar depth r (t :: rest) :=
  (look_sound (fun _ hx => (Option.mem_some.1 hx).symm) depth r).1 h

theorem Takes.of_look {depth : Nat} {r : Rule ν}
    (h : look grammar t.kind (some t.text) depth r = .passes) :
    Takes grammar depth r [] (t :: rest) [] :=
  (look_sound (fun _ hx => (Option.mem_some.1 hx).symm) depth r).2 h

/-- The same whatever the text of the token is. -/
theorem Refuses.of_look_kind {depth : Nat} {r : Rule ν}
    (h : look grammar t.kind none depth r = .refuses) : Refuses grammar depth r (t :: rest) :=
  (look_sound (fun _ hx => absurd hx (Option.not_mem_none _)) depth r).1 h

theorem Takes.of_look_kind {depth : Nat} {r : Rule ν}
    (h : look grammar t.kind none depth r = .passes) : Takes grammar depth r [] (t :: rest) [] :=
  (look_sound (fun _ hx => absurd hx (Option.not_mem_none _)) depth r).2 h

end Look

end Rule

end CodeOutline.Java
