import CodeOutline.Text.Lines
import Mathlib.Data.List.Induction
import Mathlib.Data.List.Infix

/-!
# Cutting and joining

Cutting a text at a separator loses nothing (`joinWith_pieces`), and it undoes joining where no part has
the separator in it (`pieces_joinWith`). What is in front of the first separator is the first piece
(`pieces_append`).
-/

namespace CodeOutline.Text

variable {sep : Char} {mark : String}

theorem joinWith_concat (sep : String) {front : List String} (h : front ≠ []) (last : String) :
    joinWith sep (front ++ [last]) = joinWith sep front ++ sep ++ last := by
  unfold joinWith
  induction front with
  | nil => exact absurd rfl h
  | cons part rest ih =>
    cases rest with
    | nil => simp
    | cons next rest =>
      rw [List.cons_append, List.cons_append, String.intercalate_cons_cons, ← List.cons_append,
        ih (List.cons_ne_nil _ _), String.intercalate_cons_cons]
      simp only [String.append_assoc]

theorem piecesFrom_ne_nil (sep : Char) (piece cs : List Char) : piecesFrom sep piece cs ≠ [] := by
  induction cs generalizing piece with
  | nil => exact List.cons_ne_nil _ _
  | cons c rest ih =>
    rw [piecesFrom]
    split
    · exact List.cons_ne_nil _ _
    · exact ih _

theorem intercalate_piecesFrom (sep : Char) (piece cs : List Char) :
    [sep].intercalate (piecesFrom sep piece cs) = piece.reverse ++ cs := by
  induction cs generalizing piece with
  | nil => simp [piecesFrom]
  | cons c rest ih =>
    rw [piecesFrom]
    split
    · next hc =>
      rw [List.intercalate_cons_of_ne_nil (piecesFrom_ne_nil sep [] rest), ih, hc]
      simp
    · rw [ih]
      simp

/-- Cutting a text at a separator loses nothing. -/
theorem joinWith_pieces (hmark : mark.toList = [sep]) (s : String) :
    joinWith mark (pieces sep s) = s := by
  have cut := intercalate_piecesFrom sep [] s.toList
  rw [← String.toList_inj, joinWith, String.toList_intercalate, pieces, List.map_map, hmark]
  simpa [Function.comp_def] using cut

/-- Cutting brings no characters into a text. -/
theorem mem_of_mem_pieces {s part : String} {c : Char} (h : part ∈ pieces sep s)
    (hc : c ∈ part.toList) : c ∈ s.toList := by
  have whole (piece cs p : List Char) (h : p ∈ piecesFrom sep piece cs) (hc : c ∈ p) :
      c ∈ piece ∨ c ∈ cs := by
    induction cs generalizing piece with
    | nil =>
      rw [piecesFrom, List.mem_singleton] at h
      simpa [h] using hc
    | cons x rest ih =>
      rw [piecesFrom] at h
      split at h
      · rcases List.mem_cons.1 h with rfl | h
        · exact .inl (List.mem_reverse.1 hc)
        · exact .inr (List.mem_cons_of_mem _ ((ih [] h).resolve_left List.not_mem_nil))
      · rcases ih _ h with mem | mem
        · exact (List.mem_cons.1 mem).elim (fun e => .inr (e ▸ List.mem_cons_self)) .inl
        · exact .inr (List.mem_cons_of_mem _ mem)
  obtain ⟨p, hp, rfl⟩ := List.mem_map.1 h
  rw [String.toList_ofList] at hc
  exact (whole [] s.toList p hp hc).resolve_left List.not_mem_nil

/-- What has no separator in it goes on the piece that is being read. -/
theorem piecesFrom_of_plain {cs : List Char} (plain : sep ∉ cs) (piece rest : List Char) :
    piecesFrom sep piece (cs ++ rest) = piecesFrom sep (cs.reverse ++ piece) rest := by
  induction cs generalizing piece with
  | nil => rfl
  | cons c cs ih =>
    obtain ⟨hc, hcs⟩ := List.ne_and_not_mem_of_not_mem_cons plain
    rw [List.cons_append, piecesFrom, if_neg (Ne.symm hc), ih hcs]
    simp

/-- The first piece ends at the first separator. -/
theorem pieces_append (hmark : mark.toList = [sep]) {part : String} (plain : sep ∉ part.toList)
    (rest : String) : pieces sep (part ++ mark ++ rest) = part :: pieces sep rest := by
  have first : pieces sep part = [part] := pieces_of_notMem plain
  have cut : (part ++ mark ++ rest).toList = part.toList ++ sep :: rest.toList := by
    simp [hmark]
  unfold pieces at first ⊢
  rw [cut, piecesFrom_append, List.map_append, first]
  rfl

/-- Cutting at the separator undoes joining with it where no part has one in it. -/
theorem pieces_joinWith (hmark : mark.toList = [sep]) {parts : List String} (nonempty : parts ≠ [])
    (h : ∀ part ∈ parts, sep ∉ part.toList) : pieces sep (joinWith mark parts) = parts := by
  induction parts with
  | nil => exact absurd rfl nonempty
  | cons part rest ih =>
    obtain ⟨plain, hrest⟩ := List.forall_mem_cons.1 h
    cases rest with
    | nil => rw [joinWith, String.intercalate_singleton, pieces_of_notMem plain]
    | cons next rest =>
      rw [joinWith, String.intercalate_cons_cons, pieces_append hmark plain]
      exact congrArg _ (ih (List.cons_ne_nil _ _) hrest)

end CodeOutline.Text
