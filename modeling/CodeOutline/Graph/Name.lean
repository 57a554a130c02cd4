import CodeOutline.Text.Blank
import CodeOutline.Text.Lines

/-!
# Qualified names

The names of namespaces: segments joined by dots. A name without its last segment is its parent, so
the names above a name form a chain that ends with a single segment.
-/

namespace CodeOutline.Graph

open CodeOutline.Text

/-- The namespace of what names none. -/
def defaultNamespace : String := "default"

/-- The name without blanks at its ends; the default namespace if nothing is left. -/
def normalizeName : Option String → String
  | some name => if isBlankText name then defaultNamespace else trim name
  | none => defaultNamespace

/-- The characters before the last dot. -/
def parentChars? (name : List Char) : Option (List Char) :=
  match name.reverse.dropWhile (· != '.') with
  | [] => none
  | _ :: rest => some rest.reverse

/-- The name without its last segment; a single segment has no parent. -/
def parentName? (name : String) : Option String :=
  (parentChars? name.toList).map String.ofList

/-- One or more segments, none of them empty or with a blank in it. -/
def isWellFormedName (name : String) : Bool :=
  (pieces '.' name).all fun segment => !segment.isEmpty && !segment.toList.any isBlank

theorem length_parentChars? {name parent : List Char} (h : parentChars? name = some parent) :
    parent.length < name.length := by
  have hs := (List.dropWhile_suffix (l := name.reverse) (· != '.')).length_le
  unfold parentChars? at h
  split at h
  · cases h
  · next heq =>
    cases h
    rw [heq] at hs
    simp only [List.length_cons, List.length_reverse] at hs ⊢
    omega

theorem length_parentName? {name parent : String} (h : parentName? name = some parent) :
    parent.length < name.length := by
  unfold parentName? at h
  obtain ⟨cs, hcs, rfl⟩ := Option.map_eq_some_iff.1 h
  simpa [← String.length_toList] using length_parentChars? hcs

end CodeOutline.Graph
