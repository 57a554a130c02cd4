/-!
# Facts of a source file

What the library knows about a file: the types that it declares and their members.
-/

namespace CodeOutline

/-- What a member of a type is. -/
inductive MemberKind where
  | method
  | field
  deriving Repr, DecidableEq

def MemberKind.name : MemberKind → String
  | method => "method"
  | field => "field"

/-- The kind of the given name. -/
def MemberKind.ofName? : String → Option MemberKind
  | "method" => some method
  | "field" => some field
  | _ => none

/-- A method or a field as its source declares it. -/
structure MemberFact where
  name : String
  kind : MemberKind
  annotations : List String
  comment : Option String
  deriving Repr, DecidableEq

/-- A type as its source declares it, with its members in source order. -/
structure TypeFact where
  name : String
  annotations : List String
  comment : Option String
  members : List MemberFact
  deriving Repr, DecidableEq

theorem MemberKind.ofName?_name (k : MemberKind) : ofName? k.name = some k := by
  cases k <;> rfl

end CodeOutline
