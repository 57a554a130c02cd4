import CodeOutline.Text.Blank
import CodeOutline.Text.Lines

/-!
# Paths

A path is a root and the components below it. Empty components and `.` add nothing and are left out;
`..` is kept, since what it means depends on links. One leading slash is the root, and so are three or
more; exactly two are a root of their own.
-/

namespace CodeOutline.Files

open CodeOutline.Text

/-- Components of an absolute path, from the root on. -/
abbrev Place := List String

/-- A path without empty and `.` components. -/
structure Path where
  /-- Empty for a relative path. -/
  root : String
  parts : List String
  deriving Repr, DecidableEq

/-- A piece between slashes that adds something to a path. -/
def addsComponent (piece : String) : Bool := piece ≠ "" && piece ≠ "."

/-- The components that a text of slashes and names has. -/
def componentsOf (s : String) : List String := (pieces '/' s).filter addsComponent

namespace Path

/-- The path that a text writes. -/
def ofString (s : String) : Path :=
  let slashes := (s.toList.takeWhile (· == '/')).length
  ⟨if slashes = 0 then "" else if slashes = 2 then "//" else "/", componentsOf s⟩

def isAbsolute (p : Path) : Bool := !p.root.isEmpty

/-- The path as it is written; the empty path is a dot. -/
def text (p : Path) : String :=
  if p.root.isEmpty && p.parts.isEmpty then "." else p.root ++ joinWith "/" p.parts

/-- The last component; empty if there is none. -/
def name (p : Path) : String := p.parts.getLastD ""

/-- The path without its last component. -/
def parent (p : Path) : Path := { p with parts := p.parts.dropLast }

/-- The path below this one; an absolute path stays what it is. -/
def append (p q : Path) : Path :=
  if q.isAbsolute then q else { p with parts := p.parts ++ q.parts }

instance : Append Path := ⟨append⟩

/-- The place that the path names when it is read from `cwd` on, with `..` still in it. -/
def placeFrom (cwd : Place) (p : Path) : Place :=
  if p.isAbsolute then p.parts else cwd ++ p.parts

end Path

/-- A place as an absolute path. -/
def Place.text (place : Place) : String := "/" ++ joinWith "/" place

/-- The place without `..`, each of which takes back the component before it. -/
def Place.normalize (place : Place) : Place :=
  place.foldl (fun done part => if part = ".." then done.dropLast else done ++ [part]) []

end CodeOutline.Files
