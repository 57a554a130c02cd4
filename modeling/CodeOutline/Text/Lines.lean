/-!
# Lines and pieces

Two ways to cut a text: at line breaks of any kind, and at one separating character.
-/

namespace CodeOutline.Text

/-- A character that ends a line. A carriage return and the line feed after it count as one break. -/
def isLineBreak (c : Char) : Bool :=
  let n := c.toNat
  (0x0A ≤ n && n ≤ 0x0D) || (0x1C ≤ n && n ≤ 0x1E) || n == 0x85 || n == 0x2028 || n == 0x2029

/-- The lines of a text, given the characters of the current line in reverse. A break at the very
end opens no further line. -/
def linesFrom (line : List Char) : List Char → List (List Char)
  | [] => if line.isEmpty then [] else [line.reverse]
  | '\r' :: '\n' :: rest => line.reverse :: linesFrom [] rest
  | c :: rest =>
    if isLineBreak c then line.reverse :: linesFrom [] rest else linesFrom (c :: line) rest

/-- The lines of a text, without their breaks. -/
def lines (cs : List Char) : List (List Char) :=
  linesFrom [] cs

/-- The text with every carriage return, and a line feed after it, written as one line feed. -/
def unifiedBreaks : List Char → List Char
  | [] => []
  | '\r' :: '\n' :: rest => '\n' :: unifiedBreaks rest
  | '\r' :: rest => '\n' :: unifiedBreaks rest
  | c :: rest => c :: unifiedBreaks rest

/-- The pieces between the separators, given the current piece in reverse. -/
def piecesFrom (sep : Char) (piece : List Char) : List Char → List (List Char)
  | [] => [piece.reverse]
  | c :: rest =>
    if c = sep then piece.reverse :: piecesFrom sep [] rest else piecesFrom sep (c :: piece) rest

/-- The pieces between the separators; a text without a separator is one piece. -/
def pieces (sep : Char) (s : String) : List String :=
  (piecesFrom sep [] s.toList).map String.ofList

theorem piecesFrom_append (sep : Char) (piece p q : List Char) :
    piecesFrom sep piece (p ++ sep :: q) = piecesFrom sep piece p ++ piecesFrom sep [] q := by
  induction p generalizing piece with
  | nil => simp [piecesFrom]
  | cons c p ih =>
    simp only [List.cons_append, piecesFrom]
    split <;> simp [ih]

/-- No separator is left in a piece. -/
theorem notMem_of_mem_piecesFrom {sep : Char} {piece cs p : List Char} (hpiece : sep ∉ piece)
    (h : p ∈ piecesFrom sep piece cs) : sep ∉ p := by
  induction cs generalizing piece with
  | nil =>
    rw [piecesFrom, List.mem_singleton] at h
    simpa [h] using hpiece
  | cons c rest ih =>
    rw [piecesFrom] at h
    split at h
    · rcases List.mem_cons.1 h with rfl | h
      · simpa using hpiece
      · exact ih List.not_mem_nil h
    · next hc => exact ih (List.not_mem_cons_of_ne_of_not_mem (Ne.symm hc) hpiece) h

theorem notMem_of_mem_pieces {sep : Char} {s part : String} (h : part ∈ pieces sep s) :
    sep ∉ part.toList := by
  obtain ⟨p, hp, rfl⟩ := List.mem_map.1 h
  rw [String.toList_ofList]
  exact notMem_of_mem_piecesFrom List.not_mem_nil hp

/-- A text without the separator is one piece. -/
theorem pieces_of_notMem {sep : Char} {s : String} (h : sep ∉ s.toList) : pieces sep s = [s] := by
  have whole (piece cs : List Char) (h : sep ∉ cs) :
      piecesFrom sep piece cs = [piece.reverse ++ cs] := by
    induction cs generalizing piece with
    | nil => simp [piecesFrom]
    | cons c rest ih =>
      obtain ⟨hc, hrest⟩ := List.ne_and_not_mem_of_not_mem_cons h
      rw [piecesFrom, if_neg (Ne.symm hc), ih _ hrest]
      simp
  simp [pieces, whole [] _ h]

/-- One text is a part of another. -/
def occursIn (part : List Char) : List Char → Bool
  | [] => part.isEmpty
  | c :: rest => part.isPrefixOf (c :: rest) || occursIn part rest

/-- The texts with a separator between each two. -/
def joinWith (sep : String) (parts : List String) : String :=
  sep.intercalate parts

end CodeOutline.Text
