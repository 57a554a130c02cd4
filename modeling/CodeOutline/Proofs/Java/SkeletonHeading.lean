import CodeOutline.Proofs.Java.Reading
import CodeOutline.Proofs.Java.SkeletonTokens

/-!
# Headings of skeletons read back

What the grammar makes of the beginning of a declaration: its annotations, its keyword and its name.
Most rules that could stand there are excluded by the first token (`refuses_heading`), others only by the
keyword behind the annotations (`refuses_declaration`).
-/

namespace CodeOutline.Java

open Rule Grammar

/-! ## One token -/

section Tokens

variable {s : Scan} {text : String} {rest : List Token}

/-- The scan without the comments of its gap. -/
def Scan.bare (s : Scan) : Scan :=
  { s with comments := [] }

theorem Scan.comments_put {kind : TokenKind} (bare : s.comments = []) :
    (s.put kind text).comments = [] := by
  rw [put, bare]
  rfl

theorem takes_symbol (bare : s.comments = []) :
    Takes rules 1 (symbol text) [s.put .symbol text] rest [] :=
  Takes.token (Scan.comments_put bare) (by simp [Terminal.accepts, Scan.put])

theorem takes_words {texts : List String} (bare : s.comments = []) (listed : text ∈ texts) :
    Takes rules 1 (words texts) [s.put .word text] rest [] :=
  Takes.token (Scan.comments_put bare) (by simp [Terminal.accepts, Scan.put, listed])

theorem takes_anyName (bare : s.comments = []) :
    Takes rules 1 anyName [s.put .word text] rest [] :=
  Takes.token (Scan.comments_put bare) (by simp [Terminal.accepts, Scan.put])

theorem takes_declaredName (bare : s.comments = []) :
    Takes rules 2 declaredName [s.put .word text] rest [nameNode s.row text] :=
  Takes.span_bare .name (Scan.comments_put bare) (takes_anyName bare)

end Tokens

/-! ## What the first token of a declaration excludes -/

/-- The types of fields and methods. -/
def typeWords : List (TokenKind × String) :=
  [(.word, "int"), (.word, "void")]

/-- The tokens that begin a declaration behind its annotations. -/
def keywords : List (TokenKind × String) :=
  (.word, "class") :: typeWords

/-- The tokens that begin a declaration. -/
def leads : List (TokenKind × String) :=
  (.symbol, "@") :: keywords

section Looks

variable {t : Token} {rest : List Token} {depth : Nat} {r : R}

theorem refuses_of_mem (first : List (TokenKind × String))
    (all : ∀ p ∈ first, look rules p.1 (some p.2) depth r = .refuses)
    (listed : (t.kind, t.text) ∈ first) : Refuses rules depth r (t :: rest) :=
  .of_look (all _ listed)

theorem takes_of_mem (first : List (TokenKind × String))
    (all : ∀ p ∈ first, look rules p.1 (some p.2) depth r = .passes)
    (listed : (t.kind, t.text) ∈ first) : Takes rules depth r [] (t :: rest) [] :=
  .of_look (all _ listed)

theorem takes_before {s : Scan} {kind : TokenKind} {text : String}
    (passes : look rules kind (some text) depth r = .passes) :
    Takes rules depth r [] (s.put kind text :: rest) [] :=
  .of_look passes

theorem refuses_before {s : Scan} {kind : TokenKind} {text : String}
    (refuses : look rules kind (some text) depth r = .refuses) :
    Refuses rules depth r (s.put kind text :: rest) :=
  .of_look refuses

end Looks

/-! ## Annotations -/

section Annotations

variable {s : Scan} {t : Token} {rest : List Token}

theorem foldl_dottedTokens (row : Nat) (words : List Word) (text : String) :
    (dottedTokens row words).foldl (fun text t => text ++ t.gap ++ t.text) text =
      text ++ String.ofList (words.flatMap fun word => '.' :: word.text.toList) := by
  induction words generalizing text with
  | nil => exact String.append_empty.symm
  | cons word words ih =>
    rw [dottedTokens, List.foldl_cons, List.foldl_cons, ih, List.flatMap_cons, ← String.toList_inj]
    simp [Scan.put, Scan.tight]

theorem spanOf_tokens (name : DottedName) : spanOf (name.tokens s) = name.text := by
  rw [DottedName.tokens, spanOf, foldl_dottedTokens, DottedName.text, DottedName.chars,
    String.ofList_append, String.ofList_toList]
  rfl

theorem rowBehind_dottedTokens (row : Nat) (words : List Word) :
    rowBehind row (dottedTokens row words) = row := by
  induction words with
  | nil => rfl
  | cons word words ih =>
    rw [dottedTokens, rowBehind_cons, rowBehind_cons]
    exact ih

theorem rowBehind_tokens (row : Nat) (name : DottedName) :
    rowBehind row (name.tokens s) = s.row := by
  rw [DottedName.tokens, rowBehind_cons]
  exact rowBehind_dottedTokens s.row name.rest

theorem length_tokens (name : DottedName) :
    (name.tokens s).length = 2 * name.rest.length + 1 := by
  have dotted (words : List Word) : (dottedTokens s.row words).length = 2 * words.length := by
    induction words with
    | nil => rfl
    | cons word words ih =>
      rw [dottedTokens, List.length_cons, List.length_cons, ih, List.length_cons]
      omega
  rw [DottedName.tokens, List.length_cons, dotted]

theorem takes_dots (row : Nat) (words : List Word) (lead : (t.kind, t.text) ∈ leads) :
    Takes rules (words.length + 11) (many (symbol "." ++ anyName)) (dottedTokens row words) (t :: rest)
      [] := by
  induction words with
  | nil => exact .many_stop (refuses_of_mem leads (by decide) lead)
  | cons word words ih =>
    have round : Takes rules 2 (symbol "." ++ anyName)
        [(Scan.tight row).put .symbol ".", (Scan.tight row).put .word word.text]
        (dottedTokens row words ++ t :: rest) [] :=
      (takes_symbol rfl).seq (takes_anyName rfl)
    exact (round.many_more (List.cons_ne_nil _ _) ih).mono (by rw [List.length_cons]; omega)

theorem takes_qualifiedName (name : DottedName) (bare : s.comments = [])
    (lead : (t.kind, t.text) ∈ leads) :
    Takes rules (name.rest.length + 14) (span .name (ref .qualifiedName)) (name.tokens s) (t :: rest)
      [nameNode s.row name.text] := by
  have inside : Takes rules (name.rest.length + 13) (ref .qualifiedName) (name.tokens s) (t :: rest)
      [] :=
    ((takes_anyName bare).seq (takes_dots s.row name.rest lead)).ref.mono (by omega)
  have whole := Takes.span_bare .name (Scan.comments_put bare) inside
  rwa [← DottedName.tokens, spanOf_tokens, Scan.put, rowBehind_dottedTokens] at whole

theorem takes_annotationUse (name : DottedName) (bare : s.comments = [])
    (lead : (t.kind, t.text) ∈ leads) :
    Takes rules (name.rest.length + 20) (ref .annotationUse)
      (s.put .symbol "@" :: name.tokens (.tight s.row)) (t :: rest) [useNode s.row name] := by
  have sign : Takes rules 1 (symbol "@") [s.put .symbol "@"]
      (name.tokens (.tight s.row) ++ t :: rest) [] := takes_symbol bare
  have free : Takes rules 10 (opt (ref .annotationArguments)) [] (t :: rest) [] :=
    takes_of_mem leads (by decide) lead
  have word : Takes rules _ (span .name (ref .qualifiedName)) (name.tokens (.tight s.row)) (t :: rest)
      [nameNode s.row name.text] := takes_qualifiedName name rfl lead
  have use : Takes rules _ (.node .annotationUse _) (s.put .symbol "@" :: name.tokens (.tight s.row))
      (t :: rest) [.phrase .annotationUse "" (rowBehind s.row (name.tokens (.tight s.row)))
        [nameNode s.row name.text]] :=
    Takes.node_bare .annotationUse (Scan.comments_put bare) ((sign.seq word).seq_idle free)
  rw [rowBehind_tokens] at use
  exact use.ref.mono (by omega)

theorem lead_annotationTokens (s : Scan) (rest : List Token) (names : List DottedName)
    (lead : (t.kind, t.text) ∈ leads) :
    ∃ u us, annotationTokens s names ++ t :: rest = u :: us ∧ (u.kind, u.text) ∈ leads := by
  cases names with
  | nil => exact ⟨t, rest, rfl, lead⟩
  | cons => exact ⟨_, _, rfl, List.mem_cons_self⟩

theorem length_annotationTokens (name : DottedName) (names : List DottedName) :
    (annotationTokens s (name :: names)).length =
      2 * name.rest.length + 2 + (annotationTokens (.spaced s.row) names).length := by
  rw [annotationTokens, List.length_cons, List.length_append, length_tokens]
  omega

/-- Annotations in front of a keyword, each taken by one round of a repetition. -/
theorem takes_annotations {r : R} (depth : Nat)
    (round : ∀ {n ts rest nodes}, Takes rules n (ref .annotationUse) ts rest nodes →
      Takes rules (n + 2) r ts rest nodes)
    (stop : ∀ p ∈ keywords, look rules p.1 (some p.2) depth r = .refuses)
    (names : List DottedName) (bare : s.comments = []) (lead : (t.kind, t.text) ∈ keywords) :
    Takes rules ((annotationTokens s names).length + depth + 25) (many r) (annotationTokens s names)
      (t :: rest) (names.map (useNode s.row)) := by
  induction names generalizing s with
  | nil => exact (Takes.many_stop (refuses_of_mem keywords stop lead)).mono (by omega)
  | cons name names ih =>
    have more := ih (s := .spaced s.row) rfl
    obtain ⟨u, us, first, lead'⟩ :=
      lead_annotationTokens (.spaced s.row) rest names (List.mem_cons_of_mem _ lead)
    have use : Takes rules _ r _ (u :: us) _ := round (takes_annotationUse name bare lead')
    rw [← first] at use
    rw [length_annotationTokens]
    exact (use.many_more (List.cons_ne_nil _ _) more).mono (by omega)

theorem rowBehind_annotationTokens (names : List DottedName) :
    rowBehind s.row (annotationTokens s names) = s.row := by
  induction names generalizing s with
  | nil => rfl
  | cons name names ih =>
    rw [annotationTokens, rowBehind_cons, rowBehind_append, rowBehind_tokens]
    exact ih (s := .spaced s.row)

/-- What modifiers are made of. -/
def modifier : R :=
  ref .annotationUse ||| words modifierWords
    ||| (word "non" ++ token (.joined "-") ++ token (.joinedWord "sealed"))

theorem takes_modifiers {names : List DottedName} (some : names ≠ []) (bare : s.comments = [])
    (lead : (t.kind, t.text) ∈ keywords) :
    Takes rules ((annotationTokens s names).length + 60) (ref .modifiers) (annotationTokens s names)
      (t :: rest) [.phrase .modifiers "" s.row (names.map (useNode s.row))] := by
  cases names with
  | nil => exact absurd rfl some
  | cons name names =>
    obtain ⟨u, us, first, lead'⟩ :=
      lead_annotationTokens (.spaced s.row) rest names (List.mem_cons_of_mem _ lead)
    have use : Takes rules _ (ref .annotationUse) _ (u :: us) _ :=
      takes_annotationUse name bare lead'
    rw [← first] at use
    have more : Takes rules _ (many modifier) (annotationTokens (.spaced s.row) names) (t :: rest) _ :=
      takes_annotations 20 (fun use => use.left.left) (by decide) names rfl lead
    have inside : Takes rules ((annotationTokens s (name :: names)).length + 58) (many1 modifier)
        (annotationTokens s (name :: names)) (t :: rest)
        (useNode s.row name :: names.map (useNode s.row)) := by
      rw [length_annotationTokens]
      exact (use.left.left.seq more).mono (by omega)
    have row := rowBehind_annotationTokens (s := s) (name :: names)
    have whole := Takes.node_bare .modifiers (Scan.comments_put bare) inside
    rw [annotationTokens, rowBehind_cons] at row
    rw [row] at whole
    exact whole.ref

end Annotations

/-! ## Headings -/

section Headings

variable {s : Scan} {h : Heading} {keyword : Word} {r : R} {kind : Kind} {n : Nat}
variable {t : Token} {us rest : List Token} {nodes : List Node}

theorem takes_opt_modifiers (bare : s.comments = []) (lead : (t.kind, t.text) ∈ keywords) :
    Takes rules ((annotationTokens s h.annotations).length + 61) (opt (ref .modifiers))
      (annotationTokens s h.annotations) (t :: rest) (h.modifiers s.row) := by
  unfold Heading.modifiers
  split
  · next none =>
    rw [List.isEmpty_iff.1 none]
    have free : Takes rules 20 (opt (ref .modifiers)) [] (t :: rest) [] :=
      takes_of_mem keywords (by decide) lead
    exact free.mono (by omega)
  · next some => exact (takes_modifiers (mt List.isEmpty_iff.2 some) bare lead).left

theorem takes_modified (bare : s.comments = []) (lead : (t.kind, t.text) ∈ keywords)
    (inside : Takes rules n r (t :: us) rest nodes) :
    Takes rules ((annotationTokens s h.annotations).length + n + 62) (modified r r)
      (annotationTokens s h.annotations ++ t :: us) rest (h.modifiers s.row ++ nodes) := by
  unfold Heading.modifiers
  split
  · next none =>
    rw [List.isEmpty_iff.1 none]
    have refused : Refuses rules 20 (ref .modifiers) (t :: us ++ rest) :=
      refuses_of_mem keywords (by decide) lead
    exact (Takes.right refused.seq_left inside).mono (by omega)
  · next some =>
    have mods : Takes rules _ (ref .modifiers) _ (t :: (us ++ rest)) _ :=
      takes_modifiers (mt List.isEmpty_iff.2 some) bare lead
    exact (mods.seq inside).left.mono (by omega)

/-- The first token of a declaration has the comments of the scan before it. -/
theorem first_tokens (s : Scan) (h : Heading) (keyword : Word) : ∃ t ts, h.tokens s keyword = t :: ts ∧
    h.tokens s.bare keyword = t.bare :: ts ∧ t.comments = s.comments.reverse ∧
      (t = s.put .symbol "@" ∨ t = s.put .word keyword.text) := by
  unfold Heading.tokens Scan.behind
  cases h.annotations with
  | nil => exact ⟨_, _, rfl, rfl, rfl, .inr rfl⟩
  | cons => exact ⟨_, _, rfl, rfl, rfl, .inl rfl⟩

/-- A node around a declaration stands behind the comments before it. -/
theorem takes_headed (kind : Kind) (inside : Takes rules n r (h.tokens s.bare keyword ++ us) rest nodes) :
    Takes rules (n + 1) (.node kind r) (h.tokens s keyword ++ us) rest
      (s.comments.reverse.map Node.comment ++ [.phrase kind "" (rowBehind s.row us) nodes]) := by
  obtain ⟨t, ts, first, bare, comments, -⟩ := first_tokens s h keyword
  have row : rowBehind t.endRow ts = s.row := by
    rw [← rowBehind_cons 0, ← first, Heading.tokens, rowBehind_append]
    rfl
  rw [bare, List.cons_append] at inside
  have whole := Takes.node kind inside
  rwa [rowBehind_append, row, comments, ← List.cons_append, ← first] at whole

theorem bareFirst_tokens (us : List Token) :
    bareFirst (h.tokens s keyword ++ us) = h.tokens s.bare keyword ++ us := by
  obtain ⟨t, ts, first, bare, -⟩ := first_tokens s h keyword
  rw [first, bare]
  rfl

theorem length_annotationTokens_bare (names : List DottedName) :
    (annotationTokens s.bare names).length = (annotationTokens s names).length := by
  cases names <;> rfl

theorem Scan.comments_behind (bare : s.comments = []) (names : List DottedName) :
    (s.behind names).comments = [] := by
  unfold Scan.behind
  split
  · exact bare
  · rfl

theorem takes_plainType {text : String} {except : List String} (bare : s.comments = [])
    (listed : text ∈ primitiveWords) (name : t.kind = .word) :
    Takes rules 22 (ref (.plainType except)) [s.put .word text] (t :: rest) [] := by
  have free : Takes rules 20 (opt (ref .dimensions)) [] (t :: rest) [] :=
    .of_look_kind (by rw [name]; decide)
  exact ((takes_words bare listed).left.seq_idle free).ref

/-- A declaration of another kind. -/
theorem refuses_declaration {depth : Nat} {other header : R} {body : Phrase}
    (lead : (TokenKind.word, keyword.text) ∈ keywords)
    (no : look rules .word (some keyword.text) depth other = .refuses) :
    Refuses rules ((annotationTokens s h.annotations).length + depth + 66)
      (declaration kind other header body) (h.tokens s keyword ++ us) := by
  have inside : Refuses rules ((annotationTokens s.bare h.annotations).length + depth + 62)
      (opt (ref .modifiers) ++ other) (h.tokens s.bare keyword ++ us) := by
    let type := (s.bare.behind h.annotations).put .word keyword.text
    let name := (Scan.spaced s.row).put .word h.name.text
    have mods : Takes rules _ (opt (ref .modifiers)) (annotationTokens s.bare h.annotations)
        (type :: name :: us) _ := takes_opt_modifiers rfl lead
    have refused : Refuses rules depth other (type :: name :: us) := .of_look no
    rw [Heading.tokens, List.append_assoc]
    exact (Refuses.seq_right mods refused).mono (by omega)
  rw [← bareFirst_tokens, length_annotationTokens_bare] at inside
  exact inside.seq_left.seq_left.seq_left.node

theorem refuses_typeDeclaration (lead : (TokenKind.word, keyword.text) ∈ typeWords) :
    Refuses rules ((annotationTokens s h.annotations).length + 90) (ref .typeDeclaration)
      (h.tokens s keyword ++ us) := by
  have other (phrase : Phrase) {kind : Kind} {first header : R} {body : Phrase}
      (rule : rules phrase = declaration kind first header body)
      (no : ∀ p ∈ typeWords, look rules p.1 (some p.2) 10 first = .refuses) :
      Refuses rules ((annotationTokens s h.annotations).length + 77) (ref phrase)
        (h.tokens s keyword ++ us) :=
    Refuses.ref (rule ▸ refuses_declaration (List.mem_cons_of_mem _ lead) (no _ lead))
  have classes := other .classDeclaration rfl (by decide)
  have interfaces := other .interfaceDeclaration rfl (by decide)
  have enums := other .enumDeclaration rfl (by decide)
  have records := other .recordDeclaration rfl (by decide)
  have annotations := other .annotationDeclaration rfl (by decide)
  exact ((((classes.choice interfaces).choice enums).choice records).choice annotations).ref.mono
    (by omega)

/-- A rule that fits at the first token of no declaration. -/
theorem refuses_heading {r : R} (h : Heading) (keyword : Word)
    (lead : (TokenKind.word, keyword.text) ∈ keywords) (depth : Nat)
    (all : ∀ p ∈ leads, look rules p.1 (some p.2) depth r = .refuses) :
    Refuses rules depth r (h.tokens s keyword ++ rest) := by
  obtain ⟨t, ts, first, -, -, start⟩ := first_tokens s h keyword
  have listed : (t.kind, t.text) ∈ leads := by
    rcases start with rfl | rfl
    · exact List.mem_cons_self
    · exact List.mem_cons_of_mem _ lead
  rw [first]
  exact refuses_of_mem leads all listed

end Headings

end CodeOutline.Java
