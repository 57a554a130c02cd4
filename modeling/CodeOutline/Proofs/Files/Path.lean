import CodeOutline.Files.Path
import Mathlib.Data.List.Induction

/-!
# Paths as they are written

What is between the slashes of a text are components, and components come back when a path that is
made of them is written and read again. Of a place without `..` the written form names the same place.
-/

namespace CodeOutline.Files

open CodeOutline.Text

/-- A text that can stand between two slashes and is not left out there. -/
structure IsComponent (part : String) : Prop where
  nonempty : part ≠ ""
  notDot : part ≠ "."
  noSlash : '/' ∉ part.toList

theorem isComponent_of_mem_componentsOf {s part : String} (h : part ∈ componentsOf s) :
    IsComponent part := by
  obtain ⟨hpiece, hkept⟩ := List.mem_filter.1 h
  simp only [addsComponent, ne_eq, Bool.and_eq_true, decide_eq_true_eq] at hkept
  exact ⟨hkept.1, hkept.2, notMem_of_mem_pieces hpiece⟩

theorem componentsOf_component {part : String} (h : IsComponent part) :
    componentsOf part = [part] := by
  unfold componentsOf
  rw [pieces_of_notMem h.noSlash]
  simp [addsComponent, h.nonempty, h.notDot]

/-- The components on both sides of a slash. -/
theorem componentsOf_slash (s t : String) :
    componentsOf (s ++ "/" ++ t) = componentsOf s ++ componentsOf t := by
  have chars : (s ++ "/" ++ t).toList = s.toList ++ '/' :: t.toList := by simp
  unfold componentsOf pieces
  rw [chars, piecesFrom_append, List.map_append, List.filter_append]

theorem componentsOf_joinWith {parts : List String} (h : ∀ part ∈ parts, IsComponent part) :
    componentsOf (joinWith "/" parts) = parts := by
  unfold joinWith
  induction parts with
  | nil => rfl
  | cons part rest ih =>
    obtain ⟨hpart, hrest⟩ := List.forall_mem_cons.1 h
    cases rest with
    | nil => rw [String.intercalate_singleton, componentsOf_component hpart]
    | cons next rest =>
      rw [String.intercalate_cons_cons, componentsOf_slash, componentsOf_component hpart, ih hrest]
      rfl

/-- Slashes in front add no components. -/
theorem componentsOf_slashes {root : String} (h : ∀ c ∈ root.toList, c = '/') (s : String) :
    componentsOf (root ++ s) = componentsOf s := by
  obtain ⟨cs, rfl⟩ : ∃ cs, root = String.ofList cs := ⟨root.toList, by simp⟩
  rw [String.toList_ofList] at h
  induction cs with
  | nil => simp
  | cons c rest ih =>
    obtain ⟨rfl, hrest⟩ := List.forall_mem_cons.1 h
    have shape : String.ofList ('/' :: rest) ++ s = "" ++ "/" ++ (String.ofList rest ++ s) := by
      apply String.toList_inj.1
      simp
    rw [shape, componentsOf_slash, ih hrest]
    rfl

namespace Path

@[simp]
theorem name_concat (root : String) (front : List String) (last : String) :
    name ⟨root, front ++ [last]⟩ = last :=
  List.getLastD_concat

@[simp]
theorem parent_concat (root : String) (front : List String) (last : String) :
    parent ⟨root, front ++ [last]⟩ = ⟨root, front⟩ := by
  rw [parent, List.dropLast_concat]

/-- The roots that a path can be written with. -/
def roots : List String := ["", "/", "//"]

theorem root_ofString (s : String) : (ofString s).root ∈ roots := by
  unfold ofString
  dsimp only
  split
  · simp [roots]
  · split <;> simp [roots]

theorem eq_slash_of_mem_root {root : String} (h : root ∈ roots) : ∀ c ∈ root.toList, c = '/' := by
  simp only [roots, List.mem_cons, List.not_mem_nil, or_false] at h
  rcases h with rfl | rfl | rfl <;> simp

/-- A path has the components that it is written with. -/
theorem parts_ofString_text {p : Path} (hroot : p.root ∈ roots)
    (hparts : ∀ part ∈ p.parts, IsComponent part) : (ofString p.text).parts = p.parts := by
  change componentsOf p.text = p.parts
  unfold text
  split
  · next empty =>
    rw [Bool.and_eq_true, List.isEmpty_iff] at empty
    rw [empty.2]
    rfl
  · rw [componentsOf_slashes (eq_slash_of_mem_root hroot), componentsOf_joinWith hparts]

/-- Names between slashes do not begin with one. -/
theorem takeWhile_joinWith {parts : List String} (h : ∀ part ∈ parts, IsComponent part) :
    (joinWith "/" parts).toList.takeWhile (· == '/') = [] := by
  cases parts with
  | nil => rfl
  | cons part rest =>
    obtain ⟨hpart, -⟩ := List.forall_mem_cons.1 h
    obtain ⟨c, cs, hchars⟩ := List.exists_cons_of_ne_nil
      (fun e => hpart.nonempty (String.toList_eq_nil_iff.1 e))
    have hc : c ≠ '/' := fun e => hpart.noSlash (by rw [hchars, e]; exact List.mem_cons_self)
    cases rest <;> simp [joinWith, hchars, hc]

/-- A path that is written is read as the same path. -/
theorem ofString_text {p : Path} (hroot : p.root ∈ roots)
    (hparts : ∀ part ∈ p.parts, IsComponent part) : ofString p.text = p := by
  have sameParts := parts_ofString_text hroot hparts
  have first := takeWhile_joinWith hparts
  obtain ⟨root, parts⟩ := p
  have sameRoot : (ofString (text ⟨root, parts⟩)).root = root := by
    simp only [roots, List.mem_cons, List.not_mem_nil, or_false] at hroot first
    rcases hroot with rfl | rfl | rfl
    · cases parts with
      | nil => rfl
      | cons part rest => simp [ofString, text, first]
    · simp [ofString, text, first]
    · simp [ofString, text, first]
  exact congrArg₂ Path.mk sameRoot sameParts

/-- A place that is written as a path is read as the same place. -/
theorem ofString_placeText {place : Place} (h : ∀ part ∈ place, IsComponent part) :
    ofString place.text = ⟨"/", place⟩ :=
  ofString_text (p := ⟨"/", place⟩) (by simp [roots]) h

end Path

namespace Place

theorem normalize_snoc (place : Place) (part : String) :
    normalize (place ++ [part]) =
      if part = ".." then (normalize place).dropLast else normalize place ++ [part] := by
  unfold normalize
  rw [List.foldl_append]
  rfl

/-- What is left without `..` are components of the place. -/
theorem mem_of_mem_normalize {place : Place} {part : String} (h : part ∈ normalize place) :
    part ∈ place ∧ part ≠ ".." := by
  induction place using List.reverseRecOn with
  | nil => cases h
  | append_singleton place last ih =>
    rw [normalize_snoc] at h
    split at h
    · obtain ⟨hmem, hne⟩ := ih (List.dropLast_subset _ h)
      exact ⟨List.mem_append_left _ hmem, hne⟩
    · next hlast =>
      rcases List.mem_append.1 h with h | h
      · obtain ⟨hmem, hne⟩ := ih h
        exact ⟨List.mem_append_left _ hmem, hne⟩
      · rw [List.mem_singleton.1 h]
        exact ⟨List.mem_append_right _ (List.mem_singleton_self _), hlast⟩

end Place

end CodeOutline.Files
