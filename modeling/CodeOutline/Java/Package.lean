import CodeOutline.Graph.Name

/-!
# The package line

A source file belongs to the namespace that its package line names. The line is found by its text
alone: at the start of the file or after a line feed, a possibly indented `package`, a dotted name of
ASCII letters, digits and underscores, a semicolon, and blanks up to the end of the line.
-/

namespace CodeOutline.Java

open CodeOutline.Graph CodeOutline.Text

/-- A character of a package name. -/
def isPackageChar (c : Char) : Bool :=
  c.isAlphanum || c == '_' || c == '.'

/-- The package name declared exactly at the start of the text, with no blanks before it. -/
def packageAt (cs : List Char) : Option (List Char) :=
  let keyword := "package".toList
  if keyword.isPrefixOf cs then
    let afterKeyword := cs.drop keyword.length
    let nameOn := afterKeyword.dropWhile isBlank
    let name := nameOn.takeWhile isPackageChar
    let afterName := (nameOn.dropWhile isPackageChar).dropWhile isBlank
    match afterKeyword, afterName with
    | blank :: _, ';' :: rest =>
      if isBlank blank && !name.isEmpty && (rest.takeWhile (· != '\n')).all isBlank then some name
      else none
    | _, _ => none
  else none

/-- The first package name of a text that begins at the start of a line. Where the first characters
that are not blank declare none, no line start among the blanks before them does, so the search goes
on at the next line. -/
def findPackage (cs : List Char) : Option (List Char) :=
  match packageAt (cs.dropWhile isBlank) with
  | some name => some name
  | none =>
    match _h : (cs.dropWhile isBlank).dropWhile (· != '\n') with
    | [] => none
    | _ :: rest => findPackage rest
termination_by cs.length
decreasing_by
  have h₁ := (List.dropWhile_suffix (l := cs) isBlank).length_le
  have h₂ := (List.dropWhile_suffix (l := cs.dropWhile isBlank) (· != '\n')).length_le
  rw [_h, List.length_cons] at h₂
  omega

/-- The namespace that a source text declares. -/
def namespaceOf (source : String) : String :=
  match findPackage source.toList with
  | some name => String.ofList name
  | none => defaultNamespace

end CodeOutline.Java
