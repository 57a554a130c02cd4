import CodeOutline.Java.Comment
import CodeOutline.Proofs.Text.Lines

/-!
# Documentation comments read back

A documentation comment that is written with each of its lines behind a star says just these lines
(`commentText_docComment`).
-/

namespace CodeOutline.Java

open CodeOutline.Text

/-- A line of a comment: not blank, without blanks at its ends, and with nothing in it that breaks the
line or closes the comment. -/
structure CommentLine where
  text : String
  filled : text.toList ≠ []
  trimmed : trimChars text.toList = text.toList
  unbroken : ∀ c ∈ text.toList, isLineBreak c = false
  unclosed : ¬ ['*', '/'] <:+: text.toList

theorem CommentLine.isTrimmed (line : CommentLine) : Trimmed line.text.toList :=
  .of_trimChars line.filled line.trimmed

/-- What is between the opening and the closing of a comment: each line behind a star. -/
def docInside (lines : List CommentLine) : List Char :=
  '\n' :: (lines.flatMap (fun line => " * ".toList ++ (line.text.toList ++ ['\n'])) ++ [' '])

/-- A documentation comment of some lines. -/
def docComment (lines : List CommentLine) : List Char :=
  "/**".toList ++ (docInside lines ++ "*/".toList)

theorem blockInside_docComment (lines : List CommentLine) :
    blockInside (docComment lines) = docInside lines := by
  have opened : ['/', '*', '*'].isPrefixOf (docComment lines) = true :=
    List.isPrefixOf_iff_prefix.2 (List.prefix_append _ _)
  have rest : (docComment lines).drop 3 = docInside lines ++ "*/".toList := rfl
  have closed : ['*', '/'].isSuffixOf (docInside lines ++ "*/".toList) = true :=
    List.isSuffixOf_iff_suffix.2 (List.suffix_append _ _)
  rw [blockInside, if_pos opened, rest, dropEnd, if_pos closed]
  simp

theorem undecoratedLine_star (line : CommentLine) :
    undecoratedLine (" * ".toList ++ line.text.toList) = line.text.toList := by
  have starred : Trimmed ('*' :: ([' '] ++ line.text.toList)) :=
    line.isTrimmed.cons (by decide) [' ']
  have outside : trimChars (" * ".toList ++ line.text.toList) = '*' :: ' ' :: line.text.toList :=
    (trimChars_cons_of_isBlank (by decide) _).trans starred.trimChars_eq
  rw [undecoratedLine, outside]
  exact (trimChars_cons_of_isBlank (by decide) _).trans line.trimmed

theorem lines_docInside (lines : List CommentLine) : Text.lines (docInside lines) =
    [] :: (lines.map (fun line => " * ".toList ++ line.text.toList) ++ [[' ']]) := by
  have rest : linesFrom [] (lines.flatMap (fun line =>
      " * ".toList ++ (line.text.toList ++ ['\n'])) ++ [' ']) =
      lines.map (fun line => " * ".toList ++ line.text.toList) ++ [[' ']] := by
    induction lines with
    | nil => rfl
    | cons line lines ih =>
      have unbroken : ∀ c ∈ " * ".toList ++ line.text.toList, isLineBreak c = false := by
        intro c hc
        rcases List.mem_append.1 hc with hc | hc
        · have star : " * ".toList.all (!isLineBreak ·) = true := by decide
          simpa using List.all_eq_true.1 star c hc
        · exact line.unbroken c hc
      rw [List.flatMap_cons, ← List.append_assoc, List.append_assoc, List.append_assoc,
        List.singleton_append, linesFrom_append unbroken, ih, List.map_cons, List.cons_append]
      rfl
  have opening : ∀ c ∈ ([] : List Char), isLineBreak c = false := List.forall_mem_nil _
  exact (linesFrom_append opening [] _).trans (congrArg _ rest)

theorem commentText_docComment (lines : List CommentLine) :
    commentText (String.ofList (docComment lines)) = joinWith "\n" (lines.map (·.text)) := by
  have kept : ((Text.lines (blockInside (docComment lines))).map undecoratedLine).filter
      (!·.isEmpty) = lines.map (·.text.toList) := by
    rw [blockInside_docComment, lines_docInside, List.map_cons, List.map_append, List.map_map,
      List.filter_cons_of_neg (by decide), List.filter_append]
    have undecorated : undecoratedLine ∘ (fun line : CommentLine => " * ".toList ++ line.text.toList) =
        fun line => line.text.toList := funext undecoratedLine_star
    have filled : ∀ cs ∈ lines.map (·.text.toList), (!cs.isEmpty) = true := by
      intro cs hcs
      obtain ⟨line, -, rfl⟩ := List.mem_map.1 hcs
      simpa using line.filled
    rw [undecorated, List.filter_eq_self.2 filled]
    exact List.append_nil _
  have trimmed : ∀ cs ∈ lines.map (·.text.toList), Trimmed cs := by
    intro cs hcs
    obtain ⟨line, -, rfl⟩ := List.mem_map.1 hcs
    exact line.isTrimmed
  rw [← String.toList_inj, commentText, String.toList_ofList]
  split
  · next rest line =>
    cases line
  · rw [String.toList_ofList, kept, trimChars_intercalate trimmed, joinWith,
      String.toList_intercalate, List.map_map]
    rfl

end CodeOutline.Java
