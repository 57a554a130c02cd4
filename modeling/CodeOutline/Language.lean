import CodeOutline.Java.Facts
import CodeOutline.Java.Package

/-!
# Source languages

The languages whose files the library can read. A language knows which files are its own, what
namespace a file declares, and which types.
-/

namespace CodeOutline

/-- A language whose sources can be outlined. -/
inductive Language where
  | java
  deriving Repr, DecidableEq

namespace Language

/-- The name that settings use for the language. -/
def name : Language → String
  | java => "java"

/-- Every language there is a reader for. -/
def all : List Language := [java]

/-- The names of all languages, in order. -/
def names : List String := all.map name

/-- The language of the given name, in letters of any case. -/
def ofName? (s : String) : Option Language :=
  all.find? fun l => l.name.toList = s.toList.map Char.toLower

/-- The message for a name that is no language's. -/
def unsupportedMessage (s : String) : String :=
  let supported := ", ".intercalate names
  s!"Unsupported language '{s}'. Supported: {supported}"

/-- Whether the file at a path is written in the language, by its name alone. -/
def handles : Language → String → Bool
  | java, path => Java.handles path

/-- The namespace that a source text declares. -/
def namespaceOf : Language → String → String
  | java, source => Java.namespaceOf source

/-- The types that a source text declares. -/
def typesOf : Language → String → Except Java.SyntaxError (List TypeFact)
  | java, source => Java.typesOf source

end Language

end CodeOutline
