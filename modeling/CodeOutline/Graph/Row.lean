import CodeOutline.Graph.Fact
import CodeOutline.Graph.Name

/-!
# Rows of the fact graph

What is stored: repositories, the namespaces and files of each, the types of each file, the members
of each type, and the documents saved for a repository. Rows refer to each other by number.

A repository's namespaces and files are kept under its graph key, which holds the owner too, so that
repositories of one name and different owners share nothing.
-/

namespace CodeOutline.Graph

open CodeOutline.Text

/-- The number of a row in its table. -/
abbrev Id := Int

/-- The name of a repository together with its owner. -/
def slugOf (owner name : String) : String := s!"{owner}/{name}"

theorem toList_slugOf (owner name : String) :
    (slugOf owner name).toList = owner.toList ++ '/' :: name.toList := by
  unfold slugOf
  simp [toString]

/-- A repository, with what was last known about it. -/
structure Repository where
  id : Id
  owner : String
  name : String
  commit : String
  description : Option String
  defaultBranch : String
  version : Nat
  deriving Repr, DecidableEq

def Repository.slug (r : Repository) : String := slugOf r.owner r.name

/-- The key of the repository's namespaces and files. -/
def Repository.graphKey (r : Repository) : String := r.slug

/-- A node of a repository's namespace hierarchy. -/
structure Namespace where
  id : Id
  /-- The graph key of the repository. -/
  repository : String
  name : String
  parent : Option Id
  deriving Repr, DecidableEq

/-- A file whose facts are stored. -/
structure SourceFile where
  id : Id
  /-- The graph key of the repository. -/
  repository : String
  namespaceId : Id
  path : String
  contentHash : String
  version : Nat
  deriving Repr, DecidableEq

/-- The part of a path after its last slash. -/
def fileNameOf (path : String) : String :=
  String.ofList ((path.toList.reverse.takeWhile (· != '/')).reverse)

def SourceFile.fileName (f : SourceFile) : String := fileNameOf f.path

/-- A type of a file; `position` is its place among the types of the file. -/
structure TypeRow where
  id : Id
  fileId : Id
  position : Nat
  name : String
  annotations : List String
  comment : Option String
  deriving Repr, DecidableEq

/-- A member of a type; `position` is its place among the members of the type. -/
structure MemberRow where
  id : Id
  typeId : Id
  position : Nat
  name : String
  kind : MemberKind
  annotations : List String
  comment : Option String
  deriving Repr, DecidableEq

/-- A document that was saved for a repository at a commit. -/
structure Snapshot where
  id : Id
  repositoryId : Id
  commit : String
  /-- The text of the document. -/
  payload : String
  exportPath : Option String
  /-- The namespaces that the document shows, by ascending number. -/
  namespaceIds : List Id
  isCurrent : Bool
  version : Nat
  deriving Repr, DecidableEq

/-! ## Rows to be stored

A draft comes from outside. Whether every value that must be there is there is checked on the way
in. -/

/-- What is known about a repository from where it is hosted. -/
structure RepositoryDraft where
  owner : Option String
  name : Option String
  commit : String := ""
  description : Option String := none
  defaultBranch : Option String := some "main"
  deriving Repr, DecidableEq

/-- A namespace to be stored. -/
structure NamespaceDraft where
  repository : Option String
  name : Option String
  parent : Option Id
  deriving Repr, DecidableEq

/-- A member to be stored; its kind is checked as well. -/
structure MemberDraft where
  name : Option String
  kind : String
  annotations : List String
  comment : Option String
  deriving Repr, DecidableEq

/-- A type to be stored, with its members. -/
structure TypeDraft where
  name : Option String
  annotations : List String
  comment : Option String
  members : List MemberDraft
  deriving Repr, DecidableEq

/-- A file to be stored. -/
structure FileDraft where
  repository : Option String
  namespaceId : Option Id
  path : Option String
  contentHash : String
  deriving Repr, DecidableEq

/-- A document to be saved. -/
structure SnapshotDraft where
  repositoryId : Option Id
  commit : Option String
  payload : String
  exportPath : Option String
  namespaceIds : List Id
  deriving Repr, DecidableEq

/-- The member as it is to be stored. -/
def MemberFact.draft (m : MemberFact) : MemberDraft :=
  ⟨m.name, m.kind.name, m.annotations, m.comment⟩

/-- The type as it is to be stored. -/
def TypeFact.draft (t : TypeFact) : TypeDraft :=
  ⟨t.name, t.annotations, t.comment, t.members.map MemberFact.draft⟩

end CodeOutline.Graph
