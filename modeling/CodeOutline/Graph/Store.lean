import CodeOutline.Graph.Row

/-!
# The graph store

The tables of the fact graph and the operations on them. An operation either answers and returns the
new store, or reports a fault and leaves no trace.

Rows stand in the order of their numbers. A number is never given twice: each table remembers the
greatest number it has used. Storing a row under a key that is already there updates the old row in
its place and still uses up a number.
-/

namespace CodeOutline.Graph

/-- Why a store refuses an operation. -/
inductive StoreFault where
  /-- A namespace of that name is already there. -/
  | conflict (repository name : String)
  /-- A column of a table that must have a value has none. -/
  | missing (table column : String)
  /-- A number refers to no row. -/
  | danglingReference
  /-- A member is neither a method nor a field. -/
  | memberKind
  deriving Repr, DecidableEq

def StoreFault.message : StoreFault → String
  | conflict repository name => s!"namespace '{name}' already exists in '{repository}'"
  | missing table column => s!"NOT NULL constraint failed: {table}.{column}"
  | danglingReference => "FOREIGN KEY constraint failed"
  | memberKind => "CHECK constraint failed: kind IN ('method', 'field')"

/-- The value of a column that must have one. -/
def required {α : Type} (table column : String) (value : Option α) : Except StoreFault α :=
  match value with
  | some a => .ok a
  | none => .error (.missing table column)

/-- Rows in the order of their numbers. -/
structure Table (α : Type) where
  rows : List α := []
  /-- The greatest number ever used. -/
  lastId : Id := 0
  deriving Repr, DecidableEq

/-- The number that the next row gets. -/
def Table.nextId {α : Type} (t : Table α) : Id := t.lastId + 1

/-- The table with one more row, under the next number. -/
def Table.push {α : Type} (t : Table α) (row : α) : Table α :=
  ⟨t.rows ++ [row], t.nextId⟩

/-- All tables of the fact graph. -/
structure Store where
  repositories : Table Repository := {}
  namespaces : Table Namespace := {}
  files : Table SourceFile := {}
  types : Table TypeRow := {}
  members : Table MemberRow := {}
  snapshots : Table Snapshot := {}
  deriving Repr, DecidableEq

namespace Store

/-! ## Repositories -/

/-- The repository of that owner and name. -/
def repository? (s : Store) (owner name : String) : Option Repository :=
  s.repositories.rows.find? fun r => r.owner = owner && r.name = name

/-- Stores what is known about a repository. -/
def putRepository (s : Store) (draft : RepositoryDraft) : Except StoreFault (Repository × Store) := do
  let owner ← required "repositories" "owner" draft.owner
  let name ← required "repositories" "repo_name" draft.name
  let defaultBranch ← required "repositories" "default_branch" draft.defaultBranch
  match s.repository? owner name with
  | some old =>
    let row : Repository := { old with
      commit := draft.commit
      description := draft.description
      defaultBranch
      version := old.version + 1 }
    let rows := s.repositories.rows.map fun r => if r.id = old.id then row else r
    return (row, { s with repositories := ⟨rows, s.repositories.nextId⟩ })
  | none =>
    let row : Repository :=
      { id := s.repositories.nextId, owner, name, commit := draft.commit
        description := draft.description, defaultBranch, version := 0 }
    return (row, { s with repositories := s.repositories.push row })

/-! ## Namespaces -/

/-- The namespace of that name in a repository. -/
def namespace? (s : Store) (repository name : String) : Option Namespace :=
  s.namespaces.rows.find? fun n => n.repository = repository && n.name = name

/-- The namespaces of a repository. -/
def namespacesOf (s : Store) (repository : String) : List Namespace :=
  s.namespaces.rows.filter (·.repository = repository)

/-- Whether a namespace has that number. -/
def hasNamespace (s : Store) (id : Id) : Bool :=
  s.namespaces.rows.any (·.id = id)

/-- Stores a new namespace. Its parent must exist; a namespace may be its own parent. -/
def addNamespace (s : Store) (draft : NamespaceDraft) : Except StoreFault (Namespace × Store) := do
  let repository ← required "namespaces" "repo_name" draft.repository
  let name ← required "namespaces" "qualified_name" draft.name
  if (s.namespace? repository name).isSome then throw (.conflict repository name)
  let row : Namespace := ⟨s.namespaces.nextId, repository, name, draft.parent⟩
  if draft.parent.all fun p => p = row.id || s.hasNamespace p then
    return (row, { s with namespaces := s.namespaces.push row })
  else throw .danglingReference

/-! ## Facts -/

/-- The file at that path in a repository. -/
def file? (s : Store) (repository path : String) : Option SourceFile :=
  s.files.rows.find? fun f => f.repository = repository && f.path = path

/-- Removes the types that a test accepts, and their members. -/
def dropTypes (s : Store) (doomed : TypeRow → Bool) : Store :=
  let gone := (s.types.rows.filter doomed).map (·.id)
  { s with
    types := { s.types with rows := s.types.rows.filter (!doomed ·) }
    members := { s.members with rows := s.members.rows.filter (!gone.contains ·.typeId) } }

/-- Stores the row of a file. Its namespace must exist. -/
def putFile (s : Store) (draft : FileDraft) : Except StoreFault (SourceFile × Store) := do
  let repository ← required "files" "repo_name" draft.repository
  let namespaceId ← required "files" "namespace_id" draft.namespaceId
  let path ← required "files" "path" draft.path
  if !s.hasNamespace namespaceId then throw .danglingReference
  match s.file? repository path with
  | some old =>
    let row : SourceFile := { old with
      namespaceId
      contentHash := draft.contentHash
      version := old.version + 1 }
    let rows := s.files.rows.map fun f => if f.id = old.id then row else f
    return (row, { s with files := ⟨rows, s.files.nextId⟩ })
  | none =>
    let row : SourceFile := ⟨s.files.nextId, repository, namespaceId, path, draft.contentHash, 0⟩
    return (row, { s with files := s.files.push row })

/-- Stores a member of a type. -/
def addMember (s : Store) (typeId : Id) (position : Nat) (m : MemberDraft) :
    Except StoreFault Store := do
  let name ← required "members" "name" m.name
  match MemberKind.ofName? m.kind with
  | none => throw .memberKind
  | some kind =>
    let row : MemberRow := ⟨s.members.nextId, typeId, position, name, kind, m.annotations, m.comment⟩
    return { s with members := s.members.push row }

/-- Stores the members of a type, the first of them at the given position. -/
def addMembers (s : Store) (typeId : Id) (position : Nat) :
    List MemberDraft → Except StoreFault Store
  | [] => .ok s
  | m :: rest =>
    match s.addMember typeId position m with
    | .ok s => addMembers s typeId (position + 1) rest
    | .error fault => .error fault

/-- Stores a type of a file with its members. -/
def addType (s : Store) (fileId : Id) (position : Nat) (t : TypeDraft) : Except StoreFault Store := do
  let name ← required "types" "name" t.name
  let row : TypeRow := ⟨s.types.nextId, fileId, position, name, t.annotations, t.comment⟩
  addMembers { s with types := s.types.push row } row.id 0 t.members

/-- Stores the types of a file, the first of them at the given position. -/
def addTypes (s : Store) (fileId : Id) (position : Nat) : List TypeDraft → Except StoreFault Store
  | [] => .ok s
  | t :: rest =>
    match s.addType fileId position t with
    | .ok s => addTypes s fileId (position + 1) rest
    | .error fault => .error fault

/-- Stores a file with its types in the place of all that was stored for its path. -/
def replaceFileFacts (s : Store) (draft : FileDraft) (types : List TypeDraft) :
    Except StoreFault (SourceFile × Store) := do
  let (row, s) ← s.putFile draft
  let s ← (s.dropTypes (·.fileId = row.id)).addTypes row.id 0 types
  return (row, s)

/-- Removes the files of a repository whose paths are not among those to keep, with their types and
members. Answers how many files that were. -/
def deleteFilesExcept (s : Store) (repository : String) (keep : List String) : Nat × Store :=
  let doomed (f : SourceFile) : Bool := f.repository = repository && !keep.contains f.path
  let gone := (s.files.rows.filter doomed).map (·.id)
  let s := s.dropTypes (gone.contains ·.fileId)
  (gone.length, { s with files := { s.files with rows := s.files.rows.filter (!doomed ·) } })

/-- A namespace of the repository that no file lies in and that is no parent. -/
def isEmptyNamespace (s : Store) (repository : String) (n : Namespace) : Bool :=
  n.repository = repository && !s.files.rows.any (·.namespaceId = n.id) &&
    !s.namespaces.rows.any (·.parent = some n.id)

/-- The namespaces of a repository that nothing depends on. -/
def emptyNamespaces (s : Store) (repository : String) : List Namespace :=
  s.namespaces.rows.filter (s.isEmptyNamespace repository)

/-- Removes namespaces; documents lose their links to them. -/
def dropNamespaces (s : Store) (gone : List Id) : Store :=
  { s with
    namespaces := { s.namespaces with rows := s.namespaces.rows.filter (!gone.contains ·.id) }
    snapshots := { s.snapshots with rows := s.snapshots.rows.map fun d =>
      { d with namespaceIds := d.namespaceIds.filter (!gone.contains ·) } } }

theorem dropNamespaces_length_lt {s : Store} {n : Namespace} {gone : List Id}
    (hn : n ∈ s.namespaces.rows) (hg : n.id ∈ gone) :
    (s.dropNamespaces gone).namespaces.rows.length < s.namespaces.rows.length :=
  List.length_filter_lt_length_iff_exists.2 ⟨n, hn, by simpa using hg⟩

/-- Removes the empty namespaces of a repository again and again until none is left, so that a chain
emptied from its end goes as a whole. Answers how many that were. -/
def deleteEmptyNamespaces (s : Store) (repository : String) : Nat × Store :=
  if _h : s.emptyNamespaces repository = [] then (0, s)
  else
    let gone := (s.emptyNamespaces repository).map (·.id)
    let (count, t) := (s.dropNamespaces gone).deleteEmptyNamespaces repository
    (gone.length + count, t)
termination_by s.namespaces.rows.length
decreasing_by
  obtain ⟨n, hn⟩ := List.exists_mem_of_ne_nil _ _h
  exact dropNamespaces_length_lt (List.mem_filter.1 hn).1 (List.mem_map_of_mem hn)

/-! ## Documents -/

/-- The numbers without repetitions, in ascending order. -/
def ascending (ids : List Id) : List Id :=
  ids.eraseDups.mergeSort

/-- Stores a document as the current one of its repository. -/
def saveSnapshot (s : Store) (draft : SnapshotDraft) : Except StoreFault (Snapshot × Store) := do
  let repositoryId ← required "snapshots" "repository_id" draft.repositoryId
  let commit ← required "snapshots" "commit_hash" draft.commit
  if s.repositories.rows.any (·.id = repositoryId) && draft.namespaceIds.all s.hasNamespace then
    let demoted := s.snapshots.rows.map fun old =>
      if old.repositoryId = repositoryId && old.isCurrent then
        { old with isCurrent := false, version := old.version + 1 }
      else old
    let row : Snapshot :=
      { id := s.snapshots.nextId, repositoryId, commit, payload := draft.payload
        exportPath := draft.exportPath, namespaceIds := ascending draft.namespaceIds
        isCurrent := true, version := 0 }
    return (row, { s with snapshots := Table.push { s.snapshots with rows := demoted } row })
  else throw .danglingReference

/-- The document that stands for a repository now. -/
def currentSnapshot? (s : Store) (repositoryId : Id) : Option Snapshot :=
  s.snapshots.rows.find? fun d => d.repositoryId = repositoryId && d.isCurrent

/-- The documents of a repository, newest first. -/
def snapshotsOf (s : Store) (repositoryId : Id) : List Snapshot :=
  (s.snapshots.rows.filter (·.repositoryId = repositoryId)).reverse

end Store

end CodeOutline.Graph
