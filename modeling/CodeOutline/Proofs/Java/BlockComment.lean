import CodeOutline.Java.Comment
import CodeOutline.Proofs.Text.Lines
import Mathlib.Data.List.Forall2

/-!
# What a block comment says

A block comment says what is left of the text between its delimiters when the lines are undecorated
(`commentText_blockComment`): a star that doubles the opening goes, then each line is trimmed, loses one
leading star and is trimmed again, and lines of which nothing remains are left out.

The shortest comment is the exception. Its one star belongs to both delimiters, so that the opening of
a documentation comment is taken off and no closing is found.
-/

namespace CodeOutline.Java

open CodeOutline.Text

/-- The comment with the text between its delimiters. -/
def blockComment (inside : List Char) : List Char :=
  "/*".toList ++ (inside ++ "*/".toList)

/-- The text without a star at its beginning, if it has one. -/
def starless : List Char → List Char
  | '*' :: rest => rest
  | cs => cs

/-- What a line of a comment says: trimmed, without a leading star, and trimmed again. -/
def Undecorates (line text : List Char) : Prop :=
  ∃ inner, TrimsTo line inner ∧ TrimsTo (starless inner) text

/-- The lines that are left of the text between two delimiters: one star at its beginning goes, it is
cut into lines, these are undecorated, and empty ones go. -/
def Leaves (inside : List Char) (kept : List (List Char)) : Prop :=
  ∃ ls texts, CutsInto (starless inside) ls ∧ List.Forall₂ Undecorates ls texts ∧
    kept = texts.filter (!·.isEmpty)

variable {inside line text : List Char} {kept : List (List Char)}

theorem starless_suffix (cs : List Char) : starless cs <:+ cs := by
  unfold starless
  split
  · exact List.suffix_cons _ _
  · exact List.suffix_rfl

theorem starless_of_plain {cs : List Char} (plain : ∀ rest, cs ≠ '*' :: rest) : starless cs = cs := by
  unfold starless
  split
  · next rest => exact absurd rfl (plain rest)
  · rfl

theorem undecoratedLine_eq (line : List Char) :
    undecoratedLine line = trimChars (starless (trimChars line)) := by
  unfold undecoratedLine
  split
  · next rest same =>
    rw [same]
    rfl
  · next plain => rw [starless_of_plain plain, trimChars_trimChars]

theorem undecorates_iff : Undecorates line text ↔ undecoratedLine line = text := by
  rw [undecoratedLine_eq]
  constructor
  · rintro ⟨inner, trims, trims'⟩
    rw [trimsTo_iff.1 trims, trimsTo_iff.1 trims']
  · intro h
    exact ⟨_, trimsTo_trimChars line, trimsTo_iff.2 h⟩

theorem Undecorates.isInfix (h : Undecorates line text) : text <:+: line := by
  obtain ⟨inner, trims, again⟩ := h
  exact (again.isInfix.trans (starless_suffix inner).isInfix).trans trims.isInfix

theorem Undecorates.trimmed (h : Undecorates line text) (filled : text ≠ []) : Trimmed text := by
  obtain ⟨_, -, _, _, -, -, -, trimmed⟩ := h
  exact trimmed filled

theorem leaves_iff : Leaves inside kept ↔
    kept = ((lines (starless inside)).map undecoratedLine).filter (!·.isEmpty) := by
  have all (ls texts : List (List Char)) :
      List.Forall₂ Undecorates ls texts ↔ ls.map undecoratedLine = texts := by
    have eq : Undecorates = fun line text => undecoratedLine line = text := by
      funext line text
      exact propext undecorates_iff
    rw [eq, ← List.forall₂_map_left_iff, List.forall₂_eq_eq_eq]
  constructor
  · rintro ⟨ls, texts, cuts, undecorated, rfl⟩
    rw [cutsInto_iff.1 cuts, (all ls texts).1 undecorated]
  · rintro rfl
    exact ⟨_, _, cutsInto_iff.2 rfl, (all _ _).2 rfl, rfl⟩

/-- What is left are parts of the lines. -/
theorem Leaves.of_mem (h : Leaves inside kept) (mem : text ∈ kept) :
    text ≠ [] ∧ Trimmed text ∧ text <:+: starless inside ∧ ∀ c ∈ text, isLineBreak c = false := by
  rw [leaves_iff.1 h] at mem
  obtain ⟨mem, filled⟩ := List.mem_filter.1 mem
  obtain ⟨line, hline, undecorated⟩ := List.mem_map.1 mem
  have filled : text ≠ [] := by simpa using filled
  have undecorates := undecorates_iff.2 undecorated
  obtain ⟨within, unbroken⟩ := (cutsInto_iff.2 rfl).of_mem hline
  exact ⟨filled, undecorates.trimmed filled, undecorates.isInfix.trans within,
    fun c hc => unbroken c (undecorates.isInfix.subset hc)⟩

/-! ## Delimiters -/

/-- Taking off the opening takes off a star after it. -/
theorem blockInside_blockComment (filled : inside ≠ []) :
    blockInside (blockComment inside) = starless inside := by
  have closed (cs : List Char) : dropEnd ['*', '/'] (cs ++ "*/".toList) = cs := by
    have ends : ['*', '/'].isSuffixOf (cs ++ "*/".toList) = true :=
      List.isSuffixOf_iff_suffix.2 (List.suffix_append _ _)
    rw [dropEnd, if_pos ends]
    simp
  obtain ⟨c, rest, rfl⟩ := List.exists_cons_of_ne_nil filled
  by_cases star : c = '*'
  · subst star
    exact closed rest
  · have plain : starless (c :: rest) = c :: rest :=
      starless_of_plain fun _ same => star (List.cons.inj same).1
    have opened : ['/', '*', '*'].isPrefixOf (blockComment (c :: rest)) = false := by
      simp [blockComment, List.isPrefixOf, Ne.symm star]
    have behind : dropStart ['/', '*'] (blockComment (c :: rest)) = c :: rest ++ "*/".toList := rfl
    rw [blockInside, if_neg (by simp [opened]), behind, closed, plain]

theorem commentText_of_leaves (filled : inside ≠ []) (h : Leaves inside kept) :
    commentText (String.ofList (blockComment inside)) = String.ofList (['\n'].intercalate kept) := by
  have trimmed : ∀ line ∈ kept, Trimmed line := fun line mem => (h.of_mem mem).2.1
  rw [commentText, String.toList_ofList]
  split
  · next other => cases other
  · rw [blockInside_blockComment filled, ← leaves_iff.1 h]
    exact congrArg String.ofList (trimChars_intercalate trimmed)

/-- A block comment with anything between its delimiters says the lines that are left of it, one below
the other: each of them is trimmed and not empty, is a part of what is between the delimiters, and is
a line of the result. A comment with nothing between them says half of its closing delimiter. -/
theorem commentText_blockComment (inside : List Char) :
    inside = [] ∧ commentText (String.ofList (blockComment inside)) = "/" ∨
      inside ≠ [] ∧ ∃ kept, Leaves inside kept ∧ (∀ other, Leaves inside other → other = kept) ∧
        (commentText (String.ofList (blockComment inside))).toList = ['\n'].intercalate kept ∧
        CutsInto (['\n'].intercalate kept) kept ∧
        ∀ line ∈ kept, line ≠ [] ∧ Trimmed line ∧ line <:+: starless inside := by
  by_cases empty : inside = []
  · refine .inl ⟨empty, ?_⟩
    rw [empty]
    decide
  · have left : Leaves inside _ := leaves_iff.2 rfl
    have text := congrArg String.toList (commentText_of_leaves empty left)
    rw [String.toList_ofList] at text
    refine .inr ⟨empty, _, left, fun other h => leaves_iff.1 h, text, ?_, fun line mem => ?_⟩
    · refine cutsInto_intercalate fun line mem => ?_
      obtain ⟨filled, -, -, unbroken⟩ := left.of_mem mem
      exact ⟨filled, unbroken⟩
    · obtain ⟨filled, trimmed, within, -⟩ := left.of_mem mem
      exact ⟨filled, trimmed, within⟩

example : commentText "/** * a\n\n ** b\u2028*/" = "a\n* b" := by decide +kernel

/-- The shortest comment does not say what is left of the text between its delimiters, which is
nothing. -/
theorem commentText_shortest : ¬ ∀ inside kept, ¬ ['*', '/'] <:+: inside → Leaves inside kept →
    (commentText (String.ofList (blockComment inside))).toList = ['\n'].intercalate kept := by
  intro whole
  have nothing : Leaves [] [] := ⟨[], [], .nothing, .nil, rfl⟩
  have silent := whole [] [] (by simp) nothing
  have slash : (commentText (String.ofList (blockComment []))).toList = ['/'] := by decide
  rw [slash] at silent
  cases silent

end CodeOutline.Java
