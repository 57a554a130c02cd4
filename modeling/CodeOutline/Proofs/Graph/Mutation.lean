import CodeOutline.Proofs.Data.Distinct
import CodeOutline.Proofs.Graph.Consistent
import CodeOutline.Proofs.Graph.Transaction

/-!
# Operations as transactions

The writing operations of the store, statement by statement: what they ask the database to do, where a
transaction begins and ends, and what they read back at the end. On a connection to a consistent store
each comes to what the store's own operation says: it answers and commits the store of that operation,
or it fails and leaves the store that there was, however much it had written by then.
-/

namespace CodeOutline.Graph

open Work

variable {α : Type}

/-! ## Statements -/

namespace Statement

/-- A statement that only the constraints of the tables can refuse. -/
def of (change : Store → Except StoreFault (α × Store)) : Statement α := fun s =>
  (change s).mapError .refused

def upsertRepository (draft : RepositoryDraft) : Statement Unit :=
  .of fun s => (s.putRepository draft).map fun (_, t) => ((), t)

/-- Answers with the number of the new row. -/
def insertNamespace (draft : NamespaceDraft) : Statement Id :=
  .of fun s => (s.addNamespace draft).map fun (row, t) => (row.id, t)

def upsertFile (draft : FileDraft) : Statement Unit :=
  .of fun s => (s.putFile draft).map fun (_, t) => ((), t)

/-- Deletes the types of a file, and their members with them. -/
def deleteTypes (fileId : Id) : Statement Unit :=
  .of fun s => return ((), s.dropTypes (·.fileId = fileId))

/-- Stores a type of a file that is there. Answers with the number of the new row. -/
def insertType (fileId : Id) (position : Nat) (d : TypeDraft) : Statement Id :=
  .of fun s => do
    let name ← required "types" "name" d.name
    let row : TypeRow := ⟨s.types.nextId, fileId, position, name, d.annotations, d.comment⟩
    if s.files.rows.any (·.id = fileId) then return (row.id, { s with types := s.types.push row })
    else throw .danglingReference

/-- Stores a member of a type that is there. -/
def insertMember (typeId : Id) (position : Nat) (m : MemberDraft) : Statement Unit :=
  .of fun s => do
    let t ← s.addMember typeId position m
    if s.types.rows.any (·.id = typeId) then return ((), t) else throw .danglingReference

/-- Deletes a file, and its types and their members with it. -/
def deleteFile (fileId : Id) : Statement Unit :=
  .of fun s =>
    let t := s.dropTypes (·.fileId = fileId)
    return ((), { t with files := { t.files with rows := t.files.rows.filter (·.id ≠ fileId) } })

/-- Deletes the namespaces of a repository that are empty. No file may lose its namespace, and no
namespace its parent. Answers how many they were. -/
def deleteNamespaces (repository : String) : Statement Nat :=
  .of fun s =>
    let gone := (s.emptyNamespaces repository).map (·.id)
    let t := s.dropNamespaces gone
    if t.files.rows.any (gone.contains ·.namespaceId) ||
        t.namespaces.rows.any (·.parent.any gone.contains) then throw .danglingReference
    else return (gone.length, t)

theorem deleteNamespaces_run (repository : String) (s : Store) :
    (deleteNamespaces repository).run s = .ok ((s.emptyNamespaces repository).length,
      s.dropNamespaces ((s.emptyNamespaces repository).map (·.id))) := by
  let gone := (s.emptyNamespaces repository).map (·.id)
  let t := s.dropNamespaces gone
  have unused {i : Id} (h : i ∈ gone) : ∃ n : Namespace, n.id = i ∧
      (∀ f ∈ s.files.rows, f.namespaceId ≠ n.id) ∧ ∀ c ∈ s.namespaces.rows, c.parent ≠ some n.id := by
    obtain ⟨n, hn, e⟩ := List.mem_map.1 h
    exact ⟨n, e, (Store.isEmptyNamespace_iff.1 (List.mem_filter.1 hn).2).2⟩
  have files : t.files.rows.any (gone.contains ·.namespaceId) = false := by
    refine List.any_eq_false.2 fun f hf h => ?_
    obtain ⟨n, e, free, -⟩ := unused (List.contains_iff_mem.1 h)
    exact free f hf e.symm
  have parents : t.namespaces.rows.any (·.parent.any gone.contains) = false := by
    refine List.any_eq_false.2 fun c hc h => ?_
    obtain ⟨p, hp, h⟩ := (Option.any_eq_true _ _).1 h
    obtain ⟨n, rfl, -, free⟩ := unused (List.contains_iff_mem.1 h)
    exact free c (List.mem_filter.1 hc).1 hp
  change Except.mapError _ (if t.files.rows.any (gone.contains ·.namespaceId) ||
    t.namespaces.rows.any (·.parent.any gone.contains) then _ else _) = _
  rw [files, parents]
  change Except.ok (gone.length, t) = _
  rw [List.length_map]

/-- Makes no document of the repository the current one. -/
def demote (repositoryId : Option Id) : Statement Unit :=
  .of fun s =>
    match repositoryId with
    -- No document's repository is equal to a missing one.
    | none => return ((), s)
    | some i =>
      let rows := s.snapshots.rows.map (Store.demotedBy i)
      return ((), { s with snapshots := { s.snapshots with rows } })

/-- Stores a document without any links, as a current one. Answers with its number. -/
def insertSnapshot (draft : SnapshotDraft) : Statement Id := fun s => do
  let repositoryId ← (required "snapshots" "repository_id" draft.repositoryId).mapError .refused
  let commit ← (required "snapshots" "commit_hash" draft.commit).mapError .refused
  if (s.currentSnapshot? repositoryId).isSome then throw .secondCurrent
  let row : Snapshot :=
    ⟨s.snapshots.nextId, repositoryId, commit, draft.payload, draft.exportPath, [], true, 0⟩
  if s.repositories.rows.any (·.id = repositoryId) then
    return (row.id, { s with snapshots := s.snapshots.push row })
  else throw (.refused .danglingReference)

/-- The document with one more link. -/
def linked (snapshotId namespaceId : Id) (d : Snapshot) : Snapshot :=
  if d.id = snapshotId then { d with namespaceIds := Store.ascending (d.namespaceIds ++ [namespaceId]) }
  else d

/-- Links a document to a namespace. Both must be there. -/
def insertLink (snapshotId namespaceId : Id) : Statement Unit :=
  .of fun s =>
    let rows := s.snapshots.rows.map (linked snapshotId namespaceId)
    if s.snapshots.rows.any (·.id = snapshotId) && s.hasNamespace namespaceId then
      return ((), { s with snapshots := { s.snapshots with rows } })
    else throw .danglingReference

end Statement

/-! ## Operations -/

namespace Work

/-- Carries out a statement for each of the items. -/
def forEach {ι : Type} (statement : ι → Statement Unit) : List ι → Work Unit
  | [] => pure ()
  | i :: rest => do
    execute (statement i)
    forEach statement rest

def putRepository (draft : RepositoryDraft) : Work Repository := do
  atomically (execute (.upsertRepository draft))
  found fun s => do s.repository? (← draft.owner) (← draft.name)

def addNamespace (draft : NamespaceDraft) : Work Namespace := do
  let id ← atomically (execute (.insertNamespace draft))
  found fun s => s.namespaces.rows.find? (·.id = id)

/-- Inserts the members of a type, the first of them at the given position. -/
def insertMembers (typeId : Id) (position : Nat) (ms : List MemberDraft) : Work Unit :=
  forEach (fun (m, i) => .insertMember typeId i m) (ms.zipIdx position)

/-- Inserts types with their members, the first type at the given position. -/
def insertTypes (fileId : Id) : Nat → List TypeDraft → Work Unit
  | _, [] => pure ()
  | position, d :: rest => do
    let typeId ← execute (.insertType fileId position d)
    insertMembers typeId 0 d.members
    insertTypes fileId (position + 1) rest

/-- The file that a draft is about. -/
def fileOf (draft : FileDraft) (s : Store) : Option SourceFile := do
  s.file? (← draft.repository) (← draft.path)

/-- What a replacement writes before it is committed. -/
def writeFacts (draft : FileDraft) (types : List TypeDraft) : Work Unit := do
  execute (.upsertFile draft)
  let row ← found (fileOf draft)
  execute (.deleteTypes row.id)
  insertTypes row.id 0 types

def replaceFileFacts (draft : FileDraft) (types : List TypeDraft) : Work SourceFile := do
  atomically (writeFacts draft types)
  found (fileOf draft)

def deleteFilesExcept (repository : String) (keep : List String) : Work Nat := do
  let doomed ← select fun s =>
    (s.files.rows.filter fun f => f.repository = repository && !keep.contains f.path).map (·.id)
  atomically (forEach .deleteFile doomed)
  return doomed.length

/-- The connection after the empty namespaces of a repository are deleted once. -/
def afterRound (repository : String) (c : Connection) : Connection :=
  { c with pending := c.view.dropNamespaces ((c.view.emptyNamespaces repository).map (·.id)) }

theorem execute_deleteNamespaces (repository : String) (c : Connection) :
    execute (.deleteNamespaces repository) c =
      (.ok (c.view.emptyNamespaces repository).length, afterRound repository c) := by
  rw [execute, Statement.deleteNamespaces_run]
  rfl

/-- Deletes the empty namespaces of a repository again and again until none is left. Answers how many
they were, those included that were deleted before. -/
def deleteRounds (repository : String) (deleted : Nat) (c : Connection) :
    Except WorkFault Nat × Connection :=
  match h : execute (.deleteNamespaces repository) c with
  | (.error fault, c) => (.error fault, c)
  | (.ok 0, c) => (.ok deleted, c)
  | (.ok (n + 1), c) => deleteRounds repository (deleted + (n + 1)) c
termination_by c.view.namespaces.rows.length
decreasing_by
  rw [execute_deleteNamespaces] at h
  injection h with count after
  injection count with count
  subst after
  obtain ⟨n, hn⟩ := List.exists_mem_of_length_pos (count ▸ n.succ_pos)
  exact Store.dropNamespaces_length_lt (List.mem_filter.1 hn).1 (List.mem_map_of_mem hn)

def deleteEmptyNamespaces (repository : String) : Work Nat :=
  atomically (deleteRounds repository 0)

/-- What a document writes before it is committed. Answers with its number. -/
def writeSnapshot (draft : SnapshotDraft) : Work Id := do
  execute (.demote draft.repositoryId)
  let id ← execute (.insertSnapshot draft)
  forEach (.insertLink id) draft.namespaceIds.eraseDups
  return id

def saveSnapshot (draft : SnapshotDraft) : Work Snapshot := do
  let id ← atomically (writeSnapshot draft)
  found fun s => s.snapshots.rows.find? (·.id = id)

end Work

/-- The ending of work that does what the store says. -/
def endingOf (answer : Except StoreFault (α × Store)) : Except WorkFault (α × Store) :=
  answer.mapError .refused

variable {s t : Store} {a : α} {fault : StoreFault}

theorem ends_of_ok {change : Store → Except StoreFault (α × Store)} (h : change s = .ok (a, t)) :
    Ends (execute (.of change)) s (.ok (a, t)) := by
  have := ends_execute (.of change) s
  change Ends _ s (Except.mapError _ (change s)) at this
  rwa [h] at this

theorem ends_of_error {change : Store → Except StoreFault (α × Store)} (h : change s = .error fault) :
    Ends (execute (.of change)) s (.error (.refused fault)) := by
  have := ends_execute (.of change) s
  change Ends _ s (Except.mapError _ (change s)) at this
  rwa [h] at this

/-- A transaction that stores a row, and the query that reads it back. -/
theorem settled_of_found {β ρ : Type} {work : Work β} {answer : Except StoreFault (ρ × Store)}
    {query : β → Store → Option ρ} (key : ρ → β)
    (ends : Ends work s (endingOf (answer.map fun (row, t) => (key row, t))))
    (back : ∀ row t, answer = .ok (row, t) → query (key row) t = some row) :
    (atomically work >>= fun b => found (query b)) { committed := s } =
      settled s (endingOf answer) := by
  cases answer with
  | error fault => exact ends.dropped
  | ok out => exact ends.committed.trans (found_committed (back out.1 out.2 rfl))

/-! ## Rows that are read back -/

section Find

variable {ρ : Type} {rows : List ρ} {p : ρ → Bool} {old row : ρ}

/-- The row that has taken the place of the one that was found is found now. -/
theorem find?_update (id : ρ → Id) (hold : rows.find? p = some old) (hrow : p row) :
    (rows.map fun r => if id r = id old then row else r).find? p = some row := by
  induction rows with
  | nil => cases hold
  | cons r rest ih =>
    cases hr : p r with
    | true =>
      rw [List.find?_cons_of_pos hr] at hold
      obtain rfl := Option.some.inj hold
      simp [hrow]
    | false =>
      rw [List.find?_cons_of_neg (by simp [hr])] at hold
      by_cases e : id r = id old
      · simp [e, hrow]
      · simpa [e, hr] using ih hold

/-- A new row is found where none was found before. -/
theorem find?_push (hnone : rows.find? p = none) (hrow : p row) :
    (rows ++ [row]).find? p = some row := by
  simp [List.find?_append, hnone, hrow]

/-- A row with a new number is found by it. -/
theorem find?_nextId {t : Table ρ} {id : ρ → Id} (h : t.Ordered id) (hid : id row = t.nextId) :
    (t.push row).rows.find? (fun r => decide (id r = id row)) = some row := by
  refine find?_push (List.find?_eq_none.2 fun r hr => ?_) (decide_eq_true rfl)
  rw [hid, decide_eq_true_eq]
  exact (h.lt_nextId hr).ne

end Find

theorem putRepository_found {draft : RepositoryDraft} {row : Repository}
    (ok : s.putRepository draft = .ok (row, t)) :
    (do t.repository? (← draft.owner) (← draft.name)) = some row := by
  obtain ⟨owner, name, _, howner, hname, -, ⟨old, hold, rfl, rfl⟩ | ⟨hnone, rfl, rfl⟩⟩ :=
    Store.putRepository_ok ok
  · obtain ⟨-, rfl, rfl⟩ := Store.repository?_eq_some hold
    rw [howner, hname]
    refine find?_update (·.id) hold ?_
    simp [Store.revised]
  · rw [howner, hname]
    exact find?_push hnone (by simp)

theorem putFile_found {draft : FileDraft} {row : SourceFile} (ok : s.putFile draft = .ok (row, t)) :
    fileOf draft t = some row := by
  obtain ⟨key, _, path, hkey, -, hpath, -, ⟨old, hold, rfl, rfl⟩ | ⟨hnone, rfl, rfl⟩⟩ :=
    Store.putFile_ok ok
  · obtain ⟨-, rfl, rfl⟩ := Store.file?_eq_some hold
    rw [fileOf, hkey, hpath]
    refine find?_update (·.id) hold ?_
    simp
  · rw [fileOf, hkey, hpath]
    exact find?_push hnone (by simp)

/-! ## Repositories and namespaces -/

theorem putRepository_settled (draft : RepositoryDraft) (s : Store) :
    Work.putRepository draft { committed := s } = settled s (endingOf (s.putRepository draft)) :=
  settled_of_found (fun _ => ()) (ends_execute (.upsertRepository draft) s) fun _ _ =>
    putRepository_found

theorem addNamespace_settled (hs : s.Consistent) (draft : NamespaceDraft) :
    Work.addNamespace draft { committed := s } = settled s (endingOf (s.addNamespace draft)) := by
  refine settled_of_found (·.id) (ends_execute (.insertNamespace draft) s) fun row t ok => ?_
  obtain ⟨_, _, -, -, -, rfl, -, rfl⟩ := Store.addNamespace_ok ok
  exact find?_nextId hs.namespaceIds rfl

/-! ## Facts of a file -/

theorem any_of_has {ρ : Type} {id : ρ → Id} {t : Table ρ} {i : Id} (h : t.Has id i) :
    t.rows.any (fun r => decide (id r = i)) = true := by
  obtain ⟨r, hr, e⟩ := h
  exact List.any_eq_true.2 ⟨r, hr, decide_eq_true e⟩

theorem ends_insertMembers {typeId : Id} (there : s.types.Has (·.id) typeId) (position : Nat)
    (ms : List MemberDraft) :
    Ends (insertMembers typeId position ms) s
      (endingOf ((s.addMembers typeId position ms).map fun t => ((), t))) := by
  induction ms generalizing s position with
  | nil => exact ends_pure () s
  | cons m rest ih =>
    rw [Store.addMembers_cons]
    cases answer : s.addMember typeId position m with
    | error fault =>
      have ends : Ends (execute (.insertMember typeId position m)) s (.error (.refused fault)) :=
        ends_of_error (by rw [answer]; rfl)
      exact ends.bind_of_error
    | ok u =>
      have ends : Ends (execute (.insertMember typeId position m)) s (.ok ((), u)) :=
        ends_of_ok (by simp only [answer, any_of_has there, if_true]; rfl)
      have types : u.types = s.types := by
        obtain ⟨row, -, -, -, -, rfl⟩ := Store.addMember_ok answer
        rfl
      exact ends.bind (ih (types ▸ there) (position + 1))

theorem ends_insertTypes {fileId : Id} (there : s.files.Has (·.id) fileId) (position : Nat)
    (ds : List TypeDraft) :
    Ends (insertTypes fileId position ds) s
      (endingOf ((s.addTypes fileId position ds).map fun t => ((), t))) := by
  induction ds generalizing s position with
  | nil => exact ends_pure () s
  | cons d rest ih =>
    rw [Store.addTypes_cons]
    cases answer : required "types" "name" d.name with
    | error fault =>
      have ends : Ends (execute (.insertType fileId position d)) s (.error (.refused fault)) :=
        ends_of_error (by rw [answer]; rfl)
      have refused : s.addType fileId position d = .error fault := by
        rw [Store.addType, answer]
        rfl
      rw [refused]
      exact ends.bind_of_error
    | ok name =>
      let row : TypeRow := ⟨s.types.nextId, fileId, position, name, d.annotations, d.comment⟩
      let pushed : Store := { s with types := s.types.push row }
      have ends : Ends (execute (.insertType fileId position d)) s (.ok (row.id, pushed)) :=
        ends_of_ok (by simp only [answer, any_of_has there, if_true]; rfl)
      have members := ends_insertMembers (s := pushed) (Table.Has.push_self s.types row) 0 d.members
      have rows : s.addType fileId position d = pushed.addMembers row.id 0 d.members := by
        rw [Store.addType, answer]
        rfl
      rw [rows]
      refine ends.bind ?_
      cases written : pushed.addMembers row.id 0 d.members with
      | error fault =>
        rw [written] at members
        exact members.bind_of_error
      | ok u =>
        rw [written] at members
        have files : u.files = s.files := by rw [Store.addMembers_frame written]
        exact members.bind (ih (files ▸ there) (position + 1))

theorem ends_writeFacts (draft : FileDraft) (types : List TypeDraft) (s : Store) :
    Ends (writeFacts draft types) s
      (endingOf ((s.replaceFileFacts draft types).map fun (_, t) => ((), t))) := by
  cases answer : s.putFile draft with
  | error fault =>
    have ends : Ends (execute (.upsertFile draft)) s (.error (.refused fault)) :=
      ends_of_error (by rw [answer]; rfl)
    rw [Store.replaceFileFacts, answer]
    exact ends.bind_of_error
  | ok out =>
    obtain ⟨row, u⟩ := out
    have ends : Ends (execute (.upsertFile draft)) s (.ok ((), u)) :=
      ends_of_ok (by rw [answer]; rfl)
    let dropped := u.dropTypes (·.fileId = row.id)
    have deleted : Ends (execute (.deleteTypes row.id)) u (.ok ((), dropped)) := ends_of_ok rfl
    have there : dropped.files.Has (·.id) row.id := .of_mem (t := u.files) (Store.putFile_mem answer)
    have same : (s.replaceFileFacts draft types).map (fun (_, t) => ((), t)) =
        (dropped.addTypes row.id 0 types).map fun t => ((), t) := by
      rw [Store.replaceFileFacts, answer]
      change Except.map _ (dropped.addTypes row.id 0 types >>= _) = _
      cases dropped.addTypes row.id 0 types <;> rfl
    rw [same]
    exact ends.bind ((ends_found (putFile_found answer)).bind
      (deleted.bind (ends_insertTypes there 0 types)))

theorem replaceFileFacts_settled (draft : FileDraft) (types : List TypeDraft) (s : Store) :
    Work.replaceFileFacts draft types { committed := s } =
      settled s (endingOf (s.replaceFileFacts draft types)) := by
  refine settled_of_found (fun _ => ()) (ends_writeFacts draft types s) fun row t ok => ?_
  have stored := putFile_found (Store.replaceFileFacts_frame ok).1
  exact stored

/-! ## Removals -/

/-- Types that go one after the other go at once. -/
theorem dropTypes_dropTypes (s : Store) (p q : TypeRow → Bool) :
    (s.dropTypes p).dropTypes q = s.dropTypes fun u => p u || q u := by
  have types : (s.types.rows.filter (!p ·)).filter (!q ·) =
      s.types.rows.filter fun u => !(p u || q u) := by
    rw [List.filter_filter]
    exact List.filter_congr fun u _ => by simp [Bool.and_comm]
  have members : (s.members.rows.filter
        (!((s.types.rows.filter p).map (·.id)).contains ·.typeId)).filter
        (!(((s.types.rows.filter (!p ·)).filter q).map (·.id)).contains ·.typeId) =
      s.members.rows.filter
        (!((s.types.rows.filter fun u => p u || q u).map (·.id)).contains ·.typeId) := by
    rw [List.filter_filter]
    refine List.filter_congr fun m _ => Bool.eq_iff_iff.2 ?_
    simp only [Bool.and_eq_true, Bool.not_eq_true', List.contains_eq_mem, decide_eq_false_iff_not,
      List.mem_map, List.mem_filter, Bool.or_eq_true]
    constructor
    · rintro ⟨second, first⟩ ⟨u, ⟨hu, hp | hq⟩, e⟩
      · exact first ⟨u, ⟨hu, hp⟩, e⟩
      · cases hp : p u with
        | true => exact first ⟨u, ⟨hu, hp⟩, e⟩
        | false => exact second ⟨u, ⟨⟨hu, hp⟩, hq⟩, e⟩
    · intro none
      refine ⟨?_, ?_⟩
      · rintro ⟨u, ⟨⟨hu, -⟩, hq⟩, e⟩
        exact none ⟨u, ⟨hu, .inr hq⟩, e⟩
      · rintro ⟨u, ⟨hu, hp⟩, e⟩
        exact none ⟨u, ⟨hu, .inl hp⟩, e⟩
  unfold Store.dropTypes
  dsimp only
  rw [types, members]

theorem dropTypes_none (s : Store) : (s.dropTypes fun _ => false) = s := by
  unfold Store.dropTypes
  simp

/-- Files that are deleted one after the other go at once. -/
theorem ends_deleteFiles (gone : List Id) (s : Store) :
    Ends (forEach .deleteFile gone) s (.ok ((), { s.dropTypes (gone.contains ·.fileId) with
      files := ⟨s.files.rows.filter (!gone.contains ·.id), s.files.lastId⟩ })) := by
  induction gone generalizing s with
  | nil =>
    have types : s.dropTypes (([] : List Id).contains ·.fileId) = s := dropTypes_none s
    have files : s.files.rows.filter (!([] : List Id).contains ·.id) = s.files.rows :=
      List.filter_eq_self.2 fun _ _ => rfl
    rw [types, files]
    exact ends_pure () s
  | cons i rest ih =>
    let t := s.dropTypes (·.fileId = i)
    let dropped : Store := { t with files := ⟨s.files.rows.filter (·.id ≠ i), s.files.lastId⟩ }
    have deleted : Ends (execute (.deleteFile i)) s (.ok ((), dropped)) := ends_of_ok rfl
    have types : t.dropTypes (rest.contains ·.fileId) =
        s.dropTypes ((i :: rest).contains ·.fileId) := by
      rw [dropTypes_dropTypes]
      rfl
    have files : (s.files.rows.filter (·.id ≠ i)).filter (!rest.contains ·.id) =
        s.files.rows.filter (!(i :: rest).contains ·.id) := by
      rw [List.filter_filter]
      exact List.filter_congr fun f _ => by simp [Bool.and_comm]
    rw [← types, ← files]
    exact deleted.bind (ih dropped)

theorem deleteFilesExcept_settled (hs : s.Consistent) (repository : String) (keep : List String) :
    Work.deleteFilesExcept repository keep { committed := s } =
      settled s (.ok (s.deleteFilesExcept repository keep)) := by
  let doomed (f : SourceFile) : Bool := f.repository = repository && !keep.contains f.path
  let gone := (s.files.rows.filter doomed).map (·.id)
  have kept : s.files.rows.filter (!gone.contains ·.id) = s.files.rows.filter (!doomed ·) := by
    refine List.filter_congr fun f hf => congrArg (!·) (Bool.eq_iff_iff.2 ?_)
    rw [List.contains_iff_mem]
    constructor
    · intro h
      obtain ⟨g, hg, e⟩ := List.mem_map.1 h
      obtain ⟨hg, hdoomed⟩ := List.mem_filter.1 hg
      rwa [← hs.fileIds.eq_of_id hg hf e]
    · exact fun h => List.mem_map_of_mem (List.mem_filter.2 ⟨hf, h⟩)
  have ends := ends_deleteFiles gone s
  rw [kept] at ends
  exact ends.committed

theorem dropNamespaces_nil (s : Store) : s.dropNamespaces [] = s := by
  unfold Store.dropNamespaces
  simp

theorem deleteRounds_eq (repository : String) (deleted : Nat) (c : Connection) :
    deleteRounds repository deleted c =
      if c.view.emptyNamespaces repository = [] then (.ok deleted, afterRound repository c)
      else deleteRounds repository (deleted + (c.view.emptyNamespaces repository).length)
        (afterRound repository c) := by
  rw [deleteRounds.eq_def]
  split
  · next h =>
    rw [execute_deleteNamespaces] at h
    cases h
  · next h =>
    rw [execute_deleteNamespaces] at h
    injection h with count after
    injection count with count
    rw [if_pos (List.length_eq_zero_iff.1 count), after]
  · next h =>
    rw [execute_deleteNamespaces] at h
    injection h with count after
    injection count with count
    rw [if_neg (List.ne_nil_of_length_eq_add_one count), count, after]

theorem ends_deleteRounds (repository : String) (deleted : Nat) (s : Store) :
    Ends (deleteRounds repository deleted) s
      (.ok (deleted + (s.deleteEmptyNamespaces repository).1,
        (s.deleteEmptyNamespaces repository).2)) := by
  induction s using Store.deleteEmptyNamespaces.induct repository generalizing deleted with
  | case1 s none =>
    rintro c rfl
    have last := deleteRounds_eq repository deleted c
    rw [if_pos none] at last
    rw [Store.deleteEmptyNamespaces, dif_pos none]
    refine ⟨afterRound repository c, rfl, last, ?_⟩
    change c.view.dropNamespaces ((c.view.emptyNamespaces repository).map (·.id)) = c.view
    rw [none, List.map_nil, dropNamespaces_nil]
  | case2 s some gone count t _ ih =>
    rintro c rfl
    have first := deleteRounds_eq repository deleted c
    rw [if_neg some] at first
    obtain ⟨c', committed, rest, view⟩ :=
      ih (deleted + (c.view.emptyNamespaces repository).length) (afterRound repository c) rfl
    rw [Store.deleteEmptyNamespaces, dif_neg some]
    refine ⟨c', committed, first.trans (rest.trans ?_), view⟩
    rw [Nat.add_assoc, ← List.length_map]

theorem deleteEmptyNamespaces_settled (repository : String) (s : Store) :
    Work.deleteEmptyNamespaces repository { committed := s } =
      settled s (.ok (s.deleteEmptyNamespaces repository)) := by
  have ends := ends_deleteRounds repository 0 s
  rw [Nat.zero_add] at ends
  exact ends.settled

/-! ## Documents -/

/-- The order in which links were made is not kept, nor how often. -/
theorem ascending_congr {ids ids' : List Id} (h : ∀ i, i ∈ ids ↔ i ∈ ids') :
    Store.ascending ids = Store.ascending ids' := by
  have sorted (l : List Id) : (Store.ascending l).Pairwise (· ≤ ·) := by
    have := @List.pairwise_mergeSort Id (fun a b => a ≤ b)
      (by simpa using fun _ _ _ => le_trans) (by simpa using le_total) l.eraseDups
    exact this.imp of_decide_eq_true
  have perm : (Store.ascending ids).Perm (Store.ascending ids') :=
    (List.mergeSort_perm ..).trans (.trans
      ((List.perm_ext_iff_of_nodup (nodup_eraseDups _) (nodup_eraseDups _)).2 (by simpa using h))
      (List.mergeSort_perm ..).symm)
  exact perm.eq_of_pairwise (fun _ _ _ _ => le_antisymm) (sorted ids) (sorted ids')

/-- The store with a new document, after all others. -/
def withSnapshot (s : Store) (row : Snapshot) : Store :=
  { s with snapshots := s.snapshots.push row }

/-- The document with links to some namespaces. -/
def linkedTo (ids : List Id) (row : Snapshot) : Snapshot :=
  { row with namespaceIds := Store.ascending ids }

theorem ends_insertLink {row : Snapshot} (ordered : s.snapshots.Ordered (·.id))
    (hid : row.id = s.snapshots.nextId) (done : List Id) (i : Id) :
    Ends (execute (.insertLink row.id i)) (withSnapshot s (linkedTo done row))
      (if s.hasNamespace i then .ok ((), withSnapshot s (linkedTo (done ++ [i]) row))
        else .error (.refused .danglingReference)) := by
  have others : s.snapshots.rows.map (Statement.linked row.id i) = s.snapshots.rows := by
    refine (List.map_congr_left fun d hd => if_neg ?_).trans (List.map_id _)
    rw [hid]
    exact (ordered.lt_nextId hd).ne
  have new : Statement.linked row.id i (linkedTo done row) = linkedTo (done ++ [i]) row := by
    have same : Store.ascending (Store.ascending done ++ [i]) = Store.ascending (done ++ [i]) :=
      ascending_congr fun j => by simp [Store.mem_ascending]
    change (if row.id = row.id then _ else _) = _
    rw [if_pos rfl]
    exact congrArg (fun ids => { row with namespaceIds := ids }) same
  have rows : (withSnapshot s (linkedTo done row)).snapshots.rows.map (Statement.linked row.id i) =
      (withSnapshot s (linkedTo (done ++ [i]) row)).snapshots.rows := by
    change (s.snapshots.rows ++ [linkedTo done row]).map _ = s.snapshots.rows ++ [_]
    rw [List.map_append, others, List.map_singleton, new]
  have there : (withSnapshot s (linkedTo done row)).snapshots.rows.any (·.id = row.id) = true :=
    any_of_has (.push_self s.snapshots (linkedTo done row))
  cases known : s.hasNamespace i with
  | false =>
    refine ends_of_error ?_
    change (if _ && s.hasNamespace i then _ else _) = _
    rw [there, known]
    rfl
  | true =>
    refine ends_of_ok ?_
    change (if _ && s.hasNamespace i then _ else _) = _
    rw [there, known, rows]
    rfl

theorem ends_forEach_insertLink {row : Snapshot} (ordered : s.snapshots.Ordered (·.id))
    (hid : row.id = s.snapshots.nextId) (done rest : List Id) :
    Ends (forEach (.insertLink row.id) rest) (withSnapshot s (linkedTo done row))
      (if rest.all s.hasNamespace then .ok ((), withSnapshot s (linkedTo (done ++ rest) row))
        else .error (.refused .danglingReference)) := by
  induction rest generalizing done with
  | nil =>
    rw [List.append_nil]
    exact ends_pure () _
  | cons i rest ih =>
    have first := ends_insertLink ordered hid done i
    rw [List.all_cons]
    cases known : s.hasNamespace i with
    | false =>
      rw [known] at first
      exact first.bind_of_error
    | true =>
      rw [known] at first
      rw [Bool.true_and, List.append_cons]
      exact first.bind (ih (done ++ [i]))

/-- A document gets its links one after the other, each once. -/
theorem ends_insertLinks {row : Snapshot} (ordered : s.snapshots.Ordered (·.id))
    (hid : row.id = s.snapshots.nextId) (bare : row.namespaceIds = []) (ids : List Id) :
    Ends (forEach (.insertLink row.id) ids.eraseDups) (withSnapshot s row)
      (if ids.all s.hasNamespace then .ok ((), withSnapshot s (linkedTo ids row))
        else .error (.refused .danglingReference)) := by
  have ends := ends_forEach_insertLink ordered hid [] ids.eraseDups
  have none : linkedTo [] row = row := by
    have empty : Store.ascending [] = row.namespaceIds := by simp [Store.ascending, bare]
    rw [linkedTo, empty]
  have distinct : linkedTo ids.eraseDups row = linkedTo ids row := by
    rw [linkedTo, ascending_congr fun _ => List.mem_eraseDups]
    rfl
  have all : ids.eraseDups.all s.hasNamespace = ids.all s.hasNamespace := by
    rw [Bool.eq_iff_iff, List.all_eq_true, List.all_eq_true]
    simp only [List.mem_eraseDups]
  rwa [none, List.nil_append, distinct, all] at ends

/-- The store with no document of a repository as the current one. -/
def demoted (repositoryId : Id) (s : Store) : Store :=
  { s with snapshots := ⟨s.snapshots.rows.map (Store.demotedBy repositoryId), s.snapshots.lastId⟩ }

theorem currentSnapshot?_demoted (repositoryId : Id) (s : Store) :
    (demoted repositoryId s).currentSnapshot? repositoryId = none := by
  refine List.find?_eq_none.2 fun d' hd' current => ?_
  obtain ⟨d, -, rfl⟩ := List.mem_map.1 hd'
  rw [Bool.and_eq_true, decide_eq_true_eq] at current
  rcases Store.demotedBy_cases repositoryId d with ⟨-, no⟩ | ⟨other, same⟩
  · rw [no] at current
    cases current.2
  · rw [same] at current
    exact other current.1

theorem ends_insertSnapshot {repositoryId : Id} (free : s.currentSnapshot? repositoryId = none)
    (commit payload : String) (exportPath : Option String) (namespaceIds : List Id) :
    let row : Snapshot :=
      ⟨s.snapshots.nextId, repositoryId, commit, payload, exportPath, [], true, 0⟩
    Ends (execute (.insertSnapshot ⟨repositoryId, commit, payload, exportPath, namespaceIds⟩)) s
      (if s.repositories.rows.any (·.id = repositoryId) then .ok (row.id, withSnapshot s row)
        else .error (.refused .danglingReference)) := by
  intro row
  have ends := ends_execute
    (.insertSnapshot ⟨repositoryId, commit, payload, exportPath, namespaceIds⟩) s
  change Ends _ _ (if (s.currentSnapshot? repositoryId).isSome then _ else _) at ends
  rwa [free] at ends

/-- Where its repository is there, a document is stored without its links. These follow. -/
theorem ends_writeSnapshot (hs : s.Consistent) (draft : SnapshotDraft) :
    Ends (writeSnapshot draft) s
      (endingOf ((s.saveSnapshot draft).map fun (row, t) => (row.id, t))) := by
  obtain ⟨repositoryId?, commit?, payload, exportPath, namespaceIds⟩ := draft
  cases repositoryId? with
  | none =>
    have first : Ends (execute (.demote none)) s (.ok ((), s)) := ends_of_ok rfl
    exact first.bind (Ends.bind_of_error (ends_execute (.insertSnapshot _) s))
  | some repositoryId =>
    let u := demoted repositoryId s
    have first : Ends (execute (.demote (some repositoryId))) s (.ok ((), u)) := ends_of_ok rfl
    refine first.bind ?_
    cases commit? with
    | none => exact Ends.bind_of_error (ends_execute (.insertSnapshot _) u)
    | some commit =>
      let draft : SnapshotDraft := ⟨repositoryId, commit, payload, exportPath, namespaceIds⟩
      let row : Snapshot :=
        ⟨s.snapshots.nextId, repositoryId, commit, payload, exportPath, [], true, 0⟩
      have saved : s.saveSnapshot draft =
          if s.repositories.rows.any (·.id = repositoryId) && namespaceIds.all s.hasNamespace then
            .ok (linkedTo namespaceIds row, withSnapshot u (linkedTo namespaceIds row))
          else .error .danglingReference := rfl
      have second := ends_insertSnapshot (currentSnapshot?_demoted repositoryId s) commit payload
        exportPath namespaceIds
      change Ends _ u (if s.repositories.rows.any (·.id = repositoryId) then .ok (row.id, _) else _)
        at second
      have links : Ends (forEach (.insertLink row.id) namespaceIds.eraseDups) (withSnapshot u row)
          (if namespaceIds.all s.hasNamespace then
            .ok ((), withSnapshot u (linkedTo namespaceIds row))
          else .error (.refused .danglingReference)) :=
        ends_insertLinks (hs.snapshotIds.map (Store.demotedBy_id _) (le_refl _)) rfl rfl namespaceIds
      rw [saved]
      cases there : s.repositories.rows.any (·.id = repositoryId) with
      | false =>
        rw [there] at second
        exact second.bind_of_error
      | true =>
        rw [there] at second
        refine second.bind ?_
        cases known : namespaceIds.all s.hasNamespace with
        | false =>
          rw [known] at links
          exact links.bind_of_error
        | true =>
          rw [known] at links
          exact links.bind (ends_pure _ _)

theorem saveSnapshot_settled (hs : s.Consistent) (draft : SnapshotDraft) :
    Work.saveSnapshot draft { committed := s } = settled s (endingOf (s.saveSnapshot draft)) := by
  refine settled_of_found (·.id) (ends_writeSnapshot hs draft) fun row t ok => ?_
  obtain ⟨repositoryId, _, -, -, -, -, hrow, rfl⟩ := Store.saveSnapshot_ok ok
  have ordered := hs.snapshotIds.map (f := Store.demotedBy repositoryId) (Store.demotedBy_id _)
    (le_refl _)
  exact find?_nextId ordered (by rw [hrow]; rfl)

end CodeOutline.Graph
