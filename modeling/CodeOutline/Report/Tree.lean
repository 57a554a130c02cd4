import CodeOutline.Graph.Children

/-!
# Document trees

What a report shows, as a tree: namespaces, their files, the types of each file, and the methods and
fields of each type. Children that have not been fetched yet are `none`; a tree without such gaps is
complete.
-/

namespace CodeOutline.Report

open CodeOutline.Graph

/-- A type with its methods and its fields. -/
structure TypeBranch where
  fact : TypeRow
  methods : Option (List MemberRow) := none
  fields : Option (List MemberRow) := none
  deriving Repr, DecidableEq

/-- Whether both the methods and the fields are known. -/
def TypeBranch.isFetched (t : TypeBranch) : Bool := t.methods.isSome && t.fields.isSome

/-- A file with its types. -/
structure FileBranch where
  fact : SourceFile
  types : Option (List TypeBranch) := none
  deriving Repr, DecidableEq

/-- A namespace with its files. -/
structure NamespaceBranch where
  node : Namespace
  files : Option (List FileBranch) := none
  deriving Repr, DecidableEq

/-- The heading of a report. -/
structure Heading where
  owner : String
  name : String
  description : Option String
  deriving Repr, DecidableEq

/-- A report before it becomes text. -/
structure Tree where
  heading : Heading
  namespaces : List NamespaceBranch
  deriving Repr, DecidableEq

namespace Tree

/-- The files fetched so far. -/
def files (t : Tree) : List FileBranch :=
  t.namespaces.flatMap fun n => n.files.getD []

/-- The types fetched so far. -/
def types (t : Tree) : List TypeBranch :=
  t.files.flatMap fun f => f.types.getD []

/-! ## Gaps -/

def openNamespaces (t : Tree) : List NamespaceBranch := t.namespaces.filter (·.files.isNone)
def openFiles (t : Tree) : List FileBranch := t.files.filter (·.types.isNone)
def openTypes (t : Tree) : List TypeBranch := t.types.filter (!·.isFetched)

/-- Whether nothing is left to be fetched. -/
def isComplete (t : Tree) : Bool :=
  t.openNamespaces.isEmpty && t.openFiles.isEmpty && t.openTypes.isEmpty

/-! ## Changing branches -/

/-- Changes every file. -/
def mapFiles (f : FileBranch → FileBranch) (t : Tree) : Tree :=
  { t with namespaces := t.namespaces.map fun n => { n with files := n.files.map (·.map f) } }

/-- Changes every type. -/
def mapTypes (f : TypeBranch → TypeBranch) (t : Tree) : Tree :=
  t.mapFiles fun b => { b with types := b.types.map (·.map f) }

end Tree

end CodeOutline.Report
