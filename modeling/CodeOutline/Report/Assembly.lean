import CodeOutline.Log.Event
import CodeOutline.Report.Tree

/-!
# Assembling a document

The tree of a repository is fetched level by level. A source may leave parents out of its answers;
they are asked for again in a repair pass, at most `repairLimit` times. What has been answered is never
asked for again.
-/

namespace CodeOutline.Report

open CodeOutline.Data CodeOutline.Graph CodeOutline.Log

/-- Where children come from. A parent that is missing from an answer has not been fetched. -/
structure Source (σ : Type) where
  files : List Id → σ → List (Id × List SourceFile) × σ
  types : List Id → σ → List (Id × List TypeRow) × σ
  members : List Id → σ → List (Id × List MemberRow) × σ

/-- The store, which answers in full. -/
def Source.store : Source Store where
  files ids s := (s.filesFor ids, s)
  types ids s := (s.typesFor ids, s)
  members ids s := (s.membersFor ids, s)

/-- The number of repair passes: one for each level below the namespaces. -/
def repairLimit : Nat := 3

/-- Why a document cannot be assembled. -/
inductive AssemblyFault where
  /-- No namespace is stored for the repository. -/
  | notFound (repository : String)
  /-- Some children have not been fetched after all repair passes. -/
  | incomplete (repository : String) (namespaces files types : Nat)
  deriving Repr, DecidableEq

def AssemblyFault.message : AssemblyFault → String
  | notFound repository => s!"No data found for repository: {repository}"
  | incomplete repository namespaces files types =>
    s!"Graph for '{repository}' still incomplete after {repairLimit} repair passes: " ++
      s!"{namespaces} namespaces, {files} files, {types} types unfetched"

variable {σ : Type}

/-- Asks a source for children, unless there is nobody to ask for. -/
def ask {α : Type} (query : List Id → σ → List (Id × List α) × σ) (ids : List Id) (s : σ) :
    List (Id × List α) × σ :=
  if ids.isEmpty then ([], s) else query ids s

/-- The children of a parent in an answer. -/
def childrenIn {α : Type} (answer : List (Id × List α)) (id : Id) : Option (List α) :=
  (answer.find? (·.1 = id)).map (·.2)

/-- Fills in the files of namespaces that have none yet. -/
def Tree.fillFiles (t : Tree) (answer : List (Id × List SourceFile)) : Tree :=
  { t with namespaces := t.namespaces.map fun n =>
      if n.files.isSome then n
      else { n with files := (childrenIn answer n.node.id).map (·.map ({ fact := · })) } }

/-- Fills in the types of files that have none yet. -/
def Tree.fillTypes (t : Tree) (answer : List (Id × List TypeRow)) : Tree :=
  t.mapFiles fun f =>
    if f.types.isSome then f
    else { f with types := (childrenIn answer f.fact.id).map (·.map ({ fact := · })) }

/-- Fills in the members of types that have none yet, methods and fields apart. -/
def Tree.fillMembers (t : Tree) (answer : List (Id × List MemberRow)) : Tree :=
  t.mapTypes fun b =>
    if b.isFetched then b
    else match childrenIn answer b.fact.id with
      | none => b
      | some members => { b with
          methods := some (members.filter (·.kind = .method))
          fields := some (members.filter (·.kind = .field)) }

/-- One pass over the tree: asks for the children of every branch that has none, top level first. -/
def Tree.hydrate (source : Source σ) (t : Tree) (s : σ) : Tree × σ :=
  let (files, s) := ask source.files (t.openNamespaces.map (·.node.id)) s
  let t := t.fillFiles files
  let (types, s) := ask source.types (t.openFiles.map (·.fact.id)) s
  let t := t.fillTypes types
  let (members, s) := ask source.members (t.openTypes.map (·.fact.id)) s
  (t.fillMembers members, s)

/-- Repair passes over a tree until it is complete, at most `passes` of them. -/
def Tree.repair (source : Source σ) (repository : String) :
    (passes : Nat) → Tree → σ → Tree × σ × List Event
  | 0, t, s => (t, s, [])
  | passes + 1, t, s =>
    if t.isComplete then (t, s, [])
    else
      let event := info "assembly_repair_pass" [("repo", .text repository),
        ("attempt", .int (repairLimit - passes)), ("namespaces", .int t.openNamespaces.length),
        ("files", .int t.openFiles.length), ("types", .int t.openTypes.length)]
      let (t, s) := t.hydrate source s
      let (t, s, events) := Tree.repair source repository passes t s
      (t, s, event :: events)

/-- The complete tree of a repository, over its namespaces. -/
def assemble (source : Source σ) (heading : Heading) (namespaces : List Namespace) (s : σ) :
    Except AssemblyFault Tree × σ × List Event :=
  if namespaces.isEmpty then (.error (.notFound heading.name), s, [])
  else
    let (t, s) := Tree.hydrate source ⟨heading, namespaces.map ({ node := · })⟩ s
    let (t, s, events) := t.repair source heading.name repairLimit s
    if t.isComplete then (.ok t, s, events)
    else
      (.error (.incomplete heading.name t.openNamespaces.length t.openFiles.length
        t.openTypes.length), s, events)

/-! ## Sources with gaps -/

/-- A store that leaves the first parent out of its first answers at each level. -/
structure Forgetful where
  store : Store
  /-- The number of answers still to be cut short, at each level. -/
  files : Nat
  types : Nat
  members : Nat
  /-- The number of questions so far, at each level. -/
  fileQueries : Nat := 0
  typeQueries : Nat := 0
  memberQueries : Nat := 0

/-- An answer without its first parent, where answers are still to be cut short. -/
def cutShort {α : Type} (left : Nat) (answer : List (Id × List α)) : List (Id × List α) :=
  if left = 0 then answer else answer.drop 1

/-- A source that leaves out part of its first answers. -/
def Source.forgetful : Source Forgetful where
  files ids s := (cutShort s.files (s.store.filesFor ids),
    { s with files := s.files - 1, fileQueries := s.fileQueries + 1 })
  types ids s := (cutShort s.types (s.store.typesFor ids),
    { s with types := s.types - 1, typeQueries := s.typeQueries + 1 })
  members ids s := (cutShort s.members (s.store.membersFor ids),
    { s with members := s.members - 1, memberQueries := s.memberQueries + 1 })

end CodeOutline.Report
