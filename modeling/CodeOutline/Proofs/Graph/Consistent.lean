import CodeOutline.Proofs.Graph.Statement
import CodeOutline.Proofs.Graph.Table

/-!
# Consistent stores

What holds of the six tables at all times: keys are unique, every reference points to a row, the types
of a file and the members of a type are numbered from zero, and the newest document of a repository is
its only current one. `Evolves` relates two states of a store table by table: rows keep their numbers,
and what identifies them.

The lemmas go through what the statements of the store do to its rows, so each names only the clauses
that its tables have a part in. A file's types and members are written row by row; at each of them the
store is consistent, provided that the next position is given to the next row.
-/

namespace CodeOutline.Graph

/-- The repository is the same one, whatever is known about it. -/
def Repository.SameKey (r r' : Repository) : Prop := r.owner = r'.owner ∧ r.name = r'.name

/-- The file is the same one, whatever its text. -/
def SourceFile.SameKey (f f' : SourceFile) : Prop :=
  f.repository = f'.repository ∧ f.path = f'.path

/-- The document is the same one, current or not, whatever has become of its namespaces. -/
def Snapshot.SameDocument (d d' : Snapshot) : Prop :=
  d.repositoryId = d'.repositoryId ∧ d.commit = d'.commit ∧ d.payload = d'.payload ∧
    d.exportPath = d'.exportPath

theorem Repository.SameKey.trans {a b c : Repository} (h : a.SameKey b) (h' : b.SameKey c) :
    a.SameKey c :=
  ⟨h.1.trans h'.1, h.2.trans h'.2⟩

theorem SourceFile.SameKey.trans {a b c : SourceFile} (h : a.SameKey b) (h' : b.SameKey c) :
    a.SameKey c :=
  ⟨h.1.trans h'.1, h.2.trans h'.2⟩

theorem Snapshot.SameDocument.trans {a b c : Snapshot} (h : a.SameDocument b)
    (h' : b.SameDocument c) : a.SameDocument c := by
  obtain ⟨hr, hc, hp, he⟩ := h
  obtain ⟨hr', hc', hp', he'⟩ := h'
  exact ⟨hr.trans hr', hc.trans hc', hp.trans hp', he.trans he'⟩

namespace Store

/-- The types of a file, in the order of their numbers. -/
def typesIn (s : Store) (fileId : Id) : List TypeRow :=
  s.types.rows.filter (·.fileId = fileId)

/-- The members of a type, in the order of their numbers. -/
def membersIn (s : Store) (typeId : Id) : List MemberRow :=
  s.members.rows.filter (·.typeId = typeId)

/-- The store is one that its own statements can have made. -/
structure Consistent (s : Store) : Prop where
  repositoryIds : s.repositories.Ordered (·.id)
  namespaceIds : s.namespaces.Ordered (·.id)
  fileIds : s.files.Ordered (·.id)
  typeIds : s.types.Ordered (·.id)
  memberIds : s.members.Ordered (·.id)
  snapshotIds : s.snapshots.Ordered (·.id)
  repositoryKeys : (s.repositories.rows.map fun r => (r.owner, r.name)).Nodup
  namespaceKeys : (s.namespaces.rows.map fun n => (n.repository, n.name)).Nodup
  fileKeys : (s.files.rows.map fun f => (f.repository, f.path)).Nodup
  parents : ∀ n ∈ s.namespaces.rows, ∀ p ∈ n.parent, s.namespaces.Has (·.id) p
  fileNamespaces : ∀ f ∈ s.files.rows, s.namespaces.Has (·.id) f.namespaceId
  typeFiles : ∀ t ∈ s.types.rows, s.files.Has (·.id) t.fileId
  memberTypes : ∀ m ∈ s.members.rows, s.types.Has (·.id) m.typeId
  snapshotRepositories : ∀ d ∈ s.snapshots.rows, s.repositories.Has (·.id) d.repositoryId
  snapshotNamespaces : ∀ d ∈ s.snapshots.rows, ∀ i ∈ d.namespaceIds, s.namespaces.Has (·.id) i
  typePositions : ∀ i, (s.typesIn i).map (·.position) = List.range (s.typesIn i).length
  memberPositions : ∀ i, (s.membersIn i).map (·.position) = List.range (s.membersIn i).length
  /-- Of the documents of a repository the one with the greatest number is current, and no other. -/
  currentSnapshots : ∀ d ∈ s.snapshots.rows, ∃ c ∈ s.snapshots.rows,
    c.repositoryId = d.repositoryId ∧ c.isCurrent ∧
      ∀ e ∈ s.snapshots.rows, e.repositoryId = d.repositoryId → e.id ≤ c.id ∧ (e.isCurrent → e = c)

/-- Every table of `t` continues that of `s`. Namespaces, types and members are never updated. -/
structure Evolves (s t : Store) : Prop where
  repositories : s.repositories.Continues (·.id) Repository.SameKey t.repositories
  namespaces : s.namespaces.Continues (·.id) Eq t.namespaces
  files : s.files.Continues (·.id) SourceFile.SameKey t.files
  types : s.types.Continues (·.id) Eq t.types
  members : s.members.Continues (·.id) Eq t.members
  snapshots : s.snapshots.Continues (·.id) Snapshot.SameDocument t.snapshots

theorem consistent_empty : Consistent {} := by
  constructor <;> simp [typesIn, membersIn]

namespace Evolves

variable {s t u : Store}

theorem refl (s : Store) : s.Evolves s :=
  ⟨.refl (fun _ => ⟨rfl, rfl⟩) _, .refl (fun _ => rfl) _, .refl (fun _ => ⟨rfl, rfl⟩) _,
    .refl (fun _ => rfl) _, .refl (fun _ => rfl) _, .refl (fun _ => ⟨rfl, rfl, rfl, rfl⟩) _⟩

theorem trans (h : s.Evolves t) (h' : t.Evolves u) : s.Evolves u where
  repositories := h.repositories.trans (fun _ _ _ => .trans) h'.repositories
  namespaces := h.namespaces.trans (fun _ _ _ => .trans) h'.namespaces
  files := h.files.trans (fun _ _ _ => .trans) h'.files
  types := h.types.trans (fun _ _ _ => .trans) h'.types
  members := h.members.trans (fun _ _ _ => .trans) h'.members
  snapshots := h.snapshots.trans (fun _ _ _ => .trans) h'.snapshots

end Evolves

/-! ## Repositories -/

variable {s t : Store}

theorem repository?_eq_some {owner name : String} {r : Repository}
    (h : s.repository? owner name = some r) :
    r ∈ s.repositories.rows ∧ r.owner = owner ∧ r.name = name :=
  ⟨List.mem_of_find?_eq_some h, by simpa using List.find?_some h⟩

theorem repository?_eq_none {owner name : String} :
    s.repository? owner name = none ↔
      (owner, name) ∉ s.repositories.rows.map fun r => (r.owner, r.name) := by
  simp [repository?, List.find?_eq_none]

theorem Consistent.putRepository {draft : RepositoryDraft} {row : Repository} (h : s.Consistent)
    (ok : s.putRepository draft = .ok (row, t)) : t.Consistent ∧ s.Evolves t := by
  obtain ⟨owner, name, branch, -, -, -, ⟨old, hold, hrow, rfl⟩ | ⟨hnone, rfl, rfl⟩⟩ :=
    putRepository_ok ok
  · obtain ⟨hmem, -, -⟩ := repository?_eq_some hold
    have hid : old.id = row.id := by rw [hrow, revised]
    have same : ∀ r ∈ s.repositories.rows, r.id = row.id → r.SameKey row := by
      intro r hr e
      rw [h.repositoryIds.eq_of_id hr hmem (e.trans hid.symm), hrow, revised]
      exact ⟨rfl, rfl⟩
    rw [hid]
    refine ⟨{ h with
      repositoryIds := h.repositoryIds.update row
      repositoryKeys := Table.nodup_key_update Repository.id h.repositoryKeys fun r hr e =>
        Prod.ext (same r hr e).1.symm (same r hr e).2.symm
      snapshotRepositories := fun d hd => (h.snapshotRepositories d hd).update row _ }, ?_⟩
    exact { Evolves.refl s with repositories := .update (fun _ => ⟨rfl, rfl⟩) same }
  · refine ⟨{ h with
      repositoryIds := h.repositoryIds.push rfl
      repositoryKeys := Table.nodup_key_push h.repositoryKeys (repository?_eq_none.1 hnone)
      snapshotRepositories := fun d hd => (h.snapshotRepositories d hd).push _ }, ?_⟩
    exact { Evolves.refl s with repositories := .push (fun _ => ⟨rfl, rfl⟩) rfl }

/-! ## Namespaces -/

theorem namespace?_eq_some {repository name : String} {n : Namespace}
    (h : s.namespace? repository name = some n) :
    n ∈ s.namespaces.rows ∧ n.repository = repository ∧ n.name = name :=
  ⟨List.mem_of_find?_eq_some h, by simpa using List.find?_some h⟩

theorem namespace?_eq_none {repository name : String} :
    s.namespace? repository name = none ↔
      (repository, name) ∉ s.namespaces.rows.map fun n => (n.repository, n.name) := by
  simp [namespace?, List.find?_eq_none]

/-- A repository has one namespace of a name. -/
theorem Consistent.namespace_unique {m n : Namespace} (h : s.Consistent) (hm : m ∈ s.namespaces.rows)
    (hn : n ∈ s.namespaces.rows) (own : m.repository = n.repository) (named : m.name = n.name) :
    m = n :=
  List.inj_on_of_nodup_map h.namespaceKeys hm hn (Prod.ext own named)

theorem hasNamespace_iff {i : Id} : s.hasNamespace i ↔ s.namespaces.Has (·.id) i := by
  simp [hasNamespace, Table.Has]

theorem Consistent.addNamespace {draft : NamespaceDraft} {node : Namespace} (h : s.Consistent)
    (ok : s.addNamespace draft = .ok (node, t)) : t.Consistent ∧ s.Evolves t := by
  obtain ⟨repository, name, -, -, hnone, rfl, hparent, rfl⟩ := addNamespace_ok ok
  refine ⟨{ h with
    namespaceIds := h.namespaceIds.push rfl
    namespaceKeys := Table.nodup_key_push h.namespaceKeys (namespace?_eq_none.1 hnone)
    parents := ?_
    fileNamespaces := fun f hf => (h.fileNamespaces f hf).push _
    snapshotNamespaces := fun d hd i hi => (h.snapshotNamespaces d hd i hi).push _ },
    { Evolves.refl s with namespaces := .push (fun _ => rfl) rfl }⟩
  intro n hn p hp
  rcases List.mem_append.1 hn with hn | hn
  · exact (h.parents n hn p hp).push _
  · obtain rfl := List.mem_singleton.1 hn
    rcases hparent p hp with rfl | hp
    · exact Table.Has.push_self _ _
    · exact (hasNamespace_iff.1 hp).push _

/-! ## Files -/

theorem file?_eq_some {repository path : String} {f : SourceFile}
    (h : s.file? repository path = some f) :
    f ∈ s.files.rows ∧ f.repository = repository ∧ f.path = path :=
  ⟨List.mem_of_find?_eq_some h, by simpa using List.find?_some h⟩

theorem file?_eq_none {repository path : String} :
    s.file? repository path = none ↔
      (repository, path) ∉ s.files.rows.map fun f => (f.repository, f.path) := by
  simp [file?, List.find?_eq_none]

theorem Consistent.putFile {draft : FileDraft} {row : SourceFile} (h : s.Consistent)
    (ok : s.putFile draft = .ok (row, t)) : t.Consistent ∧ s.Evolves t := by
  obtain ⟨repository, namespaceId, path, -, -, -, hn, ⟨old, hold, hrow, rfl⟩ | ⟨hnone, rfl, rfl⟩⟩ :=
    putFile_ok ok
  · obtain ⟨hmem, -, -⟩ := file?_eq_some hold
    have hid : old.id = row.id := by rw [hrow]
    have same : ∀ f ∈ s.files.rows, f.id = row.id → f.SameKey row := by
      intro f hf e
      rw [h.fileIds.eq_of_id hf hmem (e.trans hid.symm), hrow]
      exact ⟨rfl, rfl⟩
    rw [hid]
    refine ⟨{ h with
      fileIds := h.fileIds.update row
      fileKeys := Table.nodup_key_update SourceFile.id h.fileKeys fun f hf e =>
        Prod.ext (same f hf e).1.symm (same f hf e).2.symm
      fileNamespaces := ?_
      typeFiles := fun u hu => (h.typeFiles u hu).update row _ }, ?_⟩
    · intro f hf
      obtain ⟨g, hg, rfl⟩ := List.mem_map.1 hf
      split
      · rw [hrow]
        exact hasNamespace_iff.1 hn
      · exact h.fileNamespaces g hg
    · exact { Evolves.refl s with files := .update (fun _ => ⟨rfl, rfl⟩) same }
  · refine ⟨{ h with
      fileIds := h.fileIds.push rfl
      fileKeys := Table.nodup_key_push h.fileKeys (file?_eq_none.1 hnone)
      fileNamespaces := ?_
      typeFiles := fun u hu => (h.typeFiles u hu).push _ }, ?_⟩
    · intro f hf
      rcases List.mem_append.1 hf with hf | hf
      · exact h.fileNamespaces f hf
      · rw [List.mem_singleton.1 hf]
        exact hasNamespace_iff.1 hn
    · exact { Evolves.refl s with files := .push (fun _ => ⟨rfl, rfl⟩) rfl }

/-- The file that was written is in its table. -/
theorem putFile_mem {draft : FileDraft} {row : SourceFile} (ok : s.putFile draft = .ok (row, t)) :
    row ∈ t.files.rows := by
  obtain ⟨repository, _, path, -, -, -, -, ⟨old, hold, hrow, rfl⟩ | ⟨-, rfl, rfl⟩⟩ := putFile_ok ok
  · refine List.mem_map.2 ⟨old, (file?_eq_some hold).1, ?_⟩
    rw [if_pos rfl]
  · exact List.mem_append_right _ (List.mem_singleton_self _)

/-! ## Types and members -/

theorem typesIn_push (row : TypeRow) (i : Id) :
    ({ s with types := s.types.push row } : Store).typesIn i =
      if row.fileId = i then s.typesIn i ++ [row] else s.typesIn i := by
  by_cases h : row.fileId = i <;> simp [typesIn, Table.push, List.filter_append, h]

theorem membersIn_push (row : MemberRow) (i : Id) :
    ({ s with members := s.members.push row } : Store).membersIn i =
      if row.typeId = i then s.membersIn i ++ [row] else s.membersIn i := by
  by_cases h : row.typeId = i <;> simp [membersIn, Table.push, List.filter_append, h]

/-- A row at the next position leaves the positions without a gap. -/
theorem map_position_push {α : Type} {position : α → Nat} {rows : List α} {row : α}
    (h : rows.map position = List.range rows.length) (hrow : position row = rows.length) :
    (rows ++ [row]).map position = List.range (rows ++ [row]).length := by
  simp [h, hrow, List.range_succ]

theorem Consistent.pushType (h : s.Consistent) {row : TypeRow} (hid : row.id = s.types.nextId)
    (hf : s.files.Has (·.id) row.fileId) (hp : row.position = (s.typesIn row.fileId).length) :
    Consistent { s with types := s.types.push row } where
  __ := h
  typeIds := h.typeIds.push hid
  typeFiles u hu := by
    rcases List.mem_append.1 hu with hu | hu
    · exact h.typeFiles u hu
    · rwa [List.mem_singleton.1 hu]
  memberTypes m hm := (h.memberTypes m hm).push row
  typePositions i := by
    rw [typesIn_push]
    split
    · next e => exact map_position_push (h.typePositions i) (e ▸ hp)
    · exact h.typePositions i

theorem Consistent.pushMember (h : s.Consistent) {row : MemberRow} (hid : row.id = s.members.nextId)
    (ht : s.types.Has (·.id) row.typeId) (hp : row.position = (s.membersIn row.typeId).length) :
    Consistent { s with members := s.members.push row } where
  __ := h
  memberIds := h.memberIds.push hid
  memberTypes m hm := by
    rcases List.mem_append.1 hm with hm | hm
    · exact h.memberTypes m hm
    · rwa [List.mem_singleton.1 hm]
  memberPositions i := by
    rw [membersIn_push]
    split
    · next e => exact map_position_push (h.memberPositions i) (e ▸ hp)
    · exact h.memberPositions i

/-- A type that is about to be stored has no members yet. -/
theorem Consistent.membersIn_nextId (h : s.Consistent) : s.membersIn s.types.nextId = [] := by
  refine List.filter_eq_nil_iff.2 fun m hm e => h.typeIds.nextId_fresh ?_
  rw [← of_decide_eq_true e]
  exact h.memberTypes m hm

/-- The members of a type are written after those that it has. -/
theorem Consistent.addMembers {typeId : Id} {ms : List MemberDraft} {position : Nat}
    (h : s.Consistent) (ht : s.types.Has (·.id) typeId) (hp : position = (s.membersIn typeId).length)
    (ok : addMembers s typeId position ms = .ok t) : t.Consistent ∧ s.Evolves t := by
  induction ms generalizing s position with
  | nil =>
    cases ok
    exact ⟨h, .refl _⟩
  | cons m rest ih =>
    simp only [Store.addMembers] at ok
    split at ok
    · next u hu =>
      obtain ⟨row, hid, rfl, rfl, -, rfl⟩ := addMember_ok hu
      have next : row.position + 1 =
          (({ s with members := s.members.push row } : Store).membersIn row.typeId).length := by
        rw [membersIn_push, if_pos rfl, List.length_append, hp, List.length_singleton]
      obtain ⟨ht', ev⟩ := ih (h.pushMember hid ht hp) ht next ok
      refine ⟨ht', Evolves.trans ?_ ev⟩
      exact { Evolves.refl s with members := .push (fun _ => rfl) hid }
    · cases ok

theorem Consistent.addType {fileId : Id} {position : Nat} {d : TypeDraft} (h : s.Consistent)
    (hf : s.files.Has (·.id) fileId) (hp : position = (s.typesIn fileId).length)
    (ok : s.addType fileId position d = .ok t) : t.Consistent ∧ s.Evolves t := by
  obtain ⟨row, hid, rfl, rfl, -, ok⟩ := addType_ok ok
  have hu := h.pushType hid hf hp
  have hm : 0 = (({ s with types := s.types.push row } : Store).membersIn row.id).length := by
    change 0 = (s.membersIn row.id).length
    rw [hid, h.membersIn_nextId, List.length_nil]
  obtain ⟨ht, ev⟩ := hu.addMembers (Table.Has.push_self _ _) hm ok
  refine ⟨ht, Evolves.trans ?_ ev⟩
  exact { Evolves.refl s with types := .push (fun _ => rfl) hid }

theorem Consistent.addTypes {fileId : Id} {ds : List TypeDraft} {position : Nat} (h : s.Consistent)
    (hf : s.files.Has (·.id) fileId) (hp : position = (s.typesIn fileId).length)
    (ok : addTypes s fileId position ds = .ok t) : t.Consistent ∧ s.Evolves t := by
  induction ds generalizing s position with
  | nil =>
    cases ok
    exact ⟨h, .refl _⟩
  | cons d rest ih =>
    simp only [Store.addTypes] at ok
    split at ok
    · next u hu =>
      obtain ⟨hcu, ev⟩ := h.addType hf hp hu
      obtain ⟨row, hrow, e⟩ := addType_frame hu
      have next : position + 1 = (u.typesIn fileId).length := by
        rw [e]
        change _ = (({ s with types := s.types.push row } : Store).typesIn fileId).length
        rw [typesIn_push, if_pos hrow, List.length_append, ← hp, List.length_singleton]
      obtain ⟨ht, ev'⟩ := ih hcu (by rwa [e]) next ok
      exact ⟨ht, ev.trans ev'⟩
    · cases ok

/-! ## Removals of types -/

/-- The types of a file go as a whole. -/
theorem typesIn_dropTypes (doomed : Id → Bool) (i : Id) :
    (s.dropTypes fun u => doomed u.fileId).typesIn i = if doomed i then [] else s.typesIn i := by
  unfold typesIn dropTypes
  rw [List.filter_filter]
  split
  · next hi =>
    refine List.filter_eq_nil_iff.2 fun u _ hu => ?_
    obtain ⟨h₁, h₂⟩ := Bool.and_eq_true_iff.1 hu
    simp [of_decide_eq_true h₁, hi] at h₂
  · next hi =>
    refine List.filter_congr fun u _ => ?_
    by_cases e : u.fileId = i
    · simp [e, hi]
    · simp [e]

/-- A file is left without types. -/
theorem typesIn_dropTypes_self (fileId : Id) :
    (s.dropTypes (·.fileId = fileId)).typesIn fileId = [] := by
  have gone := typesIn_dropTypes (s := s) (fun i => decide (i = fileId)) fileId
  rwa [if_pos (decide_eq_true rfl)] at gone

/-- The members of a type go as a whole. -/
theorem membersIn_dropTypes (doomed : TypeRow → Bool) (i : Id) :
    (s.dropTypes doomed).membersIn i =
      if i ∈ (s.types.rows.filter doomed).map (·.id) then [] else s.membersIn i := by
  unfold membersIn dropTypes
  rw [List.filter_filter]
  split
  · next hi =>
    refine List.filter_eq_nil_iff.2 fun m _ hm => ?_
    obtain ⟨h₁, h₂⟩ := Bool.and_eq_true_iff.1 hm
    rw [of_decide_eq_true h₁] at h₂
    simp [hi] at h₂
  · next hi =>
    refine List.filter_congr fun m _ => ?_
    by_cases e : m.typeId = i
    · simpa [e] using hi
    · simp [e]

theorem Consistent.dropTypes (h : s.Consistent) (doomed : Id → Bool) :
    (s.dropTypes fun u => doomed u.fileId).Consistent where
  __ := h
  typeIds := h.typeIds.filter _
  memberIds := h.memberIds.filter _
  typeFiles u hu := h.typeFiles u (List.mem_filter.1 hu).1
  memberTypes m hm := by
    obtain ⟨hm, hgone⟩ := List.mem_filter.1 hm
    obtain ⟨u, hu, e⟩ := h.memberTypes m hm
    refine ⟨u, List.mem_filter.2 ⟨hu, ?_⟩, e⟩
    by_contra hd
    simp only [Bool.not_eq_true, Bool.not_eq_false'] at hd
    have : m.typeId ∈ (s.types.rows.filter fun u => doomed u.fileId).map (·.id) :=
      e ▸ List.mem_map_of_mem (List.mem_filter.2 ⟨hu, hd⟩)
    simp [this] at hgone
  typePositions i := by
    rw [typesIn_dropTypes]
    split
    · rfl
    · exact h.typePositions i
  memberPositions i := by
    rw [membersIn_dropTypes]
    split
    · rfl
    · exact h.memberPositions i

theorem Evolves.dropTypes (s : Store) (doomed : TypeRow → Bool) : s.Evolves (s.dropTypes doomed) :=
  { Evolves.refl s with
    types := .filter (fun _ => rfl) _
    members := .filter (fun _ => rfl) _ }

theorem Consistent.replaceFileFacts {draft : FileDraft} {types : List TypeDraft} {row : SourceFile}
    (h : s.Consistent) (ok : s.replaceFileFacts draft types = .ok (row, t)) :
    t.Consistent ∧ s.Evolves t := by
  obtain ⟨u, hu, ok⟩ := replaceFileFacts_ok ok
  obtain ⟨hcu, ev⟩ := h.putFile hu
  have hp : 0 = ((u.dropTypes (·.fileId = row.id)).typesIn row.id).length := by
    rw [typesIn_dropTypes_self, List.length_nil]
  obtain ⟨ht, ev'⟩ := (hcu.dropTypes fun i => decide (i = row.id)).addTypes
    (Table.Has.of_mem (t := u.files) (putFile_mem hu)) hp ok
  exact ⟨ht, ev.trans ((Evolves.dropTypes u _).trans ev')⟩

/-! ## Removals of files and namespaces -/

theorem Consistent.deleteFilesExcept (h : s.Consistent) (repository : String) (keep : List String) :
    (s.deleteFilesExcept repository keep).2.Consistent ∧
      s.Evolves (s.deleteFilesExcept repository keep).2 := by
  let doomed (f : SourceFile) : Bool := f.repository = repository && !keep.contains f.path
  let gone := (s.files.rows.filter doomed).map (·.id)
  have hd := h.dropTypes (gone.contains ·)
  refine ⟨{ hd with
    fileIds := h.fileIds.filter _
    fileKeys := Table.nodup_key_filter h.fileKeys _
    fileNamespaces := fun f hf => h.fileNamespaces f (List.mem_filter.1 hf).1
    typeFiles := ?_ }, Evolves.trans (Evolves.dropTypes s (gone.contains ·.fileId)) ?_⟩
  · intro u hu
    have hkept : (!gone.contains u.fileId) = true := (List.mem_filter.1 hu).2
    obtain ⟨f, hf, e⟩ := h.typeFiles u (List.mem_filter.1 hu).1
    refine ⟨f, List.mem_filter.2 ⟨hf, ?_⟩, e⟩
    by_contra hdoomed
    simp only [Bool.not_eq_true, Bool.not_eq_false'] at hdoomed
    have : u.fileId ∈ gone := e ▸ List.mem_map_of_mem (List.mem_filter.2 ⟨hf, hdoomed⟩)
    rw [List.contains_iff_mem.2 this] at hkept
    cases hkept
  · exact { Evolves.refl _ with files := .filter (fun _ => ⟨rfl, rfl⟩) _ }

/-- The document without links to some namespaces. -/
def unlinked (gone : List Id) (d : Snapshot) : Snapshot :=
  { d with namespaceIds := d.namespaceIds.filter (!gone.contains ·) }

/-- Namespaces can go where no file lies in them and no other namespace is below them. -/
theorem Consistent.dropNamespaces {gone : List Id} (h : s.Consistent)
    (hfiles : ∀ f ∈ s.files.rows, f.namespaceId ∉ gone)
    (hparents : ∀ n ∈ s.namespaces.rows, ∀ p ∈ n.parent, p ∉ gone) :
    (s.dropNamespaces gone).Consistent ∧ s.Evolves (s.dropNamespaces gone) := by
  have kept {i : Id} (hi : s.namespaces.Has (·.id) i) (hg : i ∉ gone) :
      (s.dropNamespaces gone).namespaces.Has (·.id) i := by
    obtain ⟨n, hn, rfl⟩ := hi
    exact ⟨n, List.mem_filter.2 ⟨hn, by simpa using hg⟩, rfl⟩
  refine ⟨{ h with
    namespaceIds := h.namespaceIds.filter _
    snapshotIds := h.snapshotIds.map (f := unlinked gone) (fun _ => rfl) (le_refl _)
    namespaceKeys := Table.nodup_key_filter h.namespaceKeys _
    parents := fun n hn p hp => kept (h.parents n (List.mem_filter.1 hn).1 p hp)
      (hparents n (List.mem_filter.1 hn).1 p hp)
    fileNamespaces := fun f hf => kept (h.fileNamespaces f hf) (hfiles f hf)
    snapshotRepositories := ?_
    snapshotNamespaces := ?_
    currentSnapshots := ?_ }, { Evolves.refl s with
      namespaces := .filter (fun _ => rfl) _
      snapshots := .map (f := unlinked gone) (fun _ _ => ⟨rfl, rfl, rfl, rfl, rfl⟩) (le_refl _) }⟩
  · intro d' hd'
    obtain ⟨d, hd, rfl⟩ := List.mem_map.1 hd'
    exact h.snapshotRepositories d hd
  · intro d' hd' i hi
    obtain ⟨d, hd, rfl⟩ := List.mem_map.1 hd'
    obtain ⟨hi, hg⟩ := List.mem_filter.1 hi
    exact kept (h.snapshotNamespaces d hd i hi) (by simpa using hg)
  · intro d' hd'
    obtain ⟨d, hd, rfl⟩ := List.mem_map.1 hd'
    obtain ⟨c, hc, hr, hcur, hmax⟩ := h.currentSnapshots d hd
    refine ⟨unlinked gone c, List.mem_map_of_mem hc, hr, hcur, fun e' he' her => ?_⟩
    obtain ⟨e, he, rfl⟩ := List.mem_map.1 he'
    exact ⟨(hmax e he her).1, fun hec => congrArg (unlinked gone) ((hmax e he her).2 hec)⟩

theorem isEmptyNamespace_iff {repository : String} {n : Namespace} :
    s.isEmptyNamespace repository n ↔ n.repository = repository ∧
      (∀ f ∈ s.files.rows, f.namespaceId ≠ n.id) ∧
      ∀ c ∈ s.namespaces.rows, c.parent ≠ some n.id := by
  simp [isEmptyNamespace, and_assoc]

/-- One round of removals keeps the store consistent, since nothing depends on an empty namespace. -/
theorem Consistent.dropEmptyNamespaces (h : s.Consistent) (repository : String) :
    (s.dropNamespaces ((s.emptyNamespaces repository).map (·.id))).Consistent ∧
      s.Evolves (s.dropNamespaces ((s.emptyNamespaces repository).map (·.id))) := by
  refine h.dropNamespaces (fun f hf hg => ?_) fun n hn p hp hg => ?_
  · obtain ⟨e, he, hid⟩ := List.mem_map.1 hg
    exact (isEmptyNamespace_iff.1 (List.mem_filter.1 he).2).2.1 f hf hid.symm
  · obtain ⟨e, he, hid⟩ := List.mem_map.1 hg
    exact (isEmptyNamespace_iff.1 (List.mem_filter.1 he).2).2.2 n hn (hid ▸ hp)

/-- What each round of removals keeps, all of them keep. -/
theorem deleteEmptyNamespaces_keeps {P : Store → Prop} (repository : String)
    (round : ∀ u, P u → P (u.dropNamespaces ((u.emptyNamespaces repository).map (·.id)))) (h : P s) :
    P (s.deleteEmptyNamespaces repository).2 := by
  induction s using deleteEmptyNamespaces.induct repository with
  | case1 s hnone =>
    rwa [deleteEmptyNamespaces, dif_pos hnone]
  | case2 s hsome gone count t _ ih =>
    rw [deleteEmptyNamespaces, dif_neg hsome]
    exact ih (round s h)

theorem Consistent.deleteEmptyNamespaces (h : s.Consistent) (repository : String) :
    (s.deleteEmptyNamespaces repository).2.Consistent ∧
      s.Evolves (s.deleteEmptyNamespaces repository).2 :=
  deleteEmptyNamespaces_keeps (P := fun u => u.Consistent ∧ s.Evolves u) repository
    (fun _ hu => ⟨(hu.1.dropEmptyNamespaces repository).1,
      hu.2.trans (hu.1.dropEmptyNamespaces repository).2⟩) ⟨h, .refl s⟩

/-! ## Documents -/

section Demotion

variable (repositoryId : Id)

theorem demotedBy_id (d : Snapshot) : (demotedBy repositoryId d).id = d.id := by
  unfold demotedBy
  split <;> rfl

theorem demotedBy_same (d : Snapshot) : d.SameDocument (demotedBy repositoryId d) := by
  unfold demotedBy
  split <;> exact ⟨rfl, rfl, rfl, rfl⟩

theorem demotedBy_namespaceIds (d : Snapshot) :
    (demotedBy repositoryId d).namespaceIds = d.namespaceIds := by
  unfold demotedBy
  split <;> rfl

/-- No document of the repository stays current, and the others are as they were. -/
theorem demotedBy_cases (d : Snapshot) :
    d.repositoryId = repositoryId ∧ (demotedBy repositoryId d).isCurrent = false ∨
      d.repositoryId ≠ repositoryId ∧ demotedBy repositoryId d = d := by
  unfold demotedBy
  by_cases hr : d.repositoryId = repositoryId
  · left
    by_cases hc : d.isCurrent <;> simp [hr, hc]
  · right
    simp [hr]

variable {repositoryId}

/-- A new document is the greatest of its repository, and all before it are demoted. -/
theorem newest_of_same_repository (h : s.Consistent) {row : Snapshot}
    (hid : row.id = s.snapshots.nextId) {c : Snapshot}
    (hc : c ∈ s.snapshots.rows.map (demotedBy row.repositoryId) ++ [row])
    (hr : c.repositoryId = row.repositoryId) : c.id ≤ row.id ∧ (c.isCurrent → c = row) := by
  have ordered := h.snapshotIds.map (f := demotedBy row.repositoryId) (demotedBy_id _) (le_refl _)
  rcases List.mem_append.1 hc with hc | hc
  · constructor
    · rw [hid]
      exact (ordered.lt_nextId hc).le
    · intro current
      obtain ⟨c, hc, rfl⟩ := List.mem_map.1 hc
      rcases demotedBy_cases row.repositoryId c with ⟨-, hfalse⟩ | ⟨hne, -⟩
      · rw [hfalse] at current
        cases current
      · exact absurd ((demotedBy_same _ c).1.trans hr) hne
  · rw [List.mem_singleton.1 hc]
    exact ⟨le_refl _, fun _ => rfl⟩

/-- The documents of another repository are the ones from before. -/
theorem mem_rows_of_other_repository {row d : Snapshot} (hne : d.repositoryId ≠ row.repositoryId) :
    d ∈ s.snapshots.rows.map (demotedBy row.repositoryId) ++ [row] ↔ d ∈ s.snapshots.rows := by
  rw [List.mem_append, List.mem_singleton]
  constructor
  · rintro (hd | rfl)
    · obtain ⟨c, hc, rfl⟩ := List.mem_map.1 hd
      rcases demotedBy_cases row.repositoryId c with ⟨heq, -⟩ | ⟨-, hsame⟩
      · exact absurd ((demotedBy_same _ c).1.symm.trans heq) hne
      · rwa [hsame]
    · exact absurd rfl hne
  · intro hd
    refine .inl (List.mem_map.2 ⟨d, hd, ?_⟩)
    rcases demotedBy_cases row.repositoryId d with ⟨heq, -⟩ | ⟨-, hsame⟩
    · exact absurd heq hne
    · exact hsame

end Demotion

theorem mem_ascending {i : Id} {ids : List Id} : i ∈ ascending ids ↔ i ∈ ids := by
  simp [ascending]

theorem Consistent.saveSnapshot {draft : SnapshotDraft} {row : Snapshot} (h : s.Consistent)
    (ok : s.saveSnapshot draft = .ok (row, t)) : t.Consistent ∧ s.Evolves t := by
  obtain ⟨repositoryId, commit, -, -, hr, hn, hrow, rfl⟩ := saveSnapshot_ok ok
  have ordered := h.snapshotIds.map (f := demotedBy repositoryId) (demotedBy_id _) (le_refl _)
  have hid : row.id = s.snapshots.nextId := by rw [hrow]
  have hrep : row.repositoryId = repositoryId := by rw [hrow]
  refine ⟨{ h with
    snapshotIds := ordered.push hid
    snapshotRepositories := ?_
    snapshotNamespaces := ?_
    currentSnapshots := ?_ }, { Evolves.refl s with
      snapshots := Table.Continues.trans ?_ (.map (f := demotedBy repositoryId)
          (fun d _ => ⟨demotedBy_id _ d, demotedBy_same _ d⟩) (le_refl _))
        (.push (fun _ => ⟨rfl, rfl, rfl, rfl⟩) hid) }⟩
  · intro d' hd'
    rcases List.mem_append.1 hd' with hd' | hd'
    · obtain ⟨d, hd, rfl⟩ := List.mem_map.1 hd'
      exact (demotedBy_same _ d).1 ▸ h.snapshotRepositories d hd
    · rw [List.mem_singleton.1 hd', hrep]
      simpa [Table.Has] using hr
  · intro d' hd' i hi
    rcases List.mem_append.1 hd' with hd' | hd'
    · obtain ⟨d, hd, rfl⟩ := List.mem_map.1 hd'
      exact h.snapshotNamespaces d hd i (demotedBy_namespaceIds _ d ▸ hi)
    · rw [List.mem_singleton.1 hd', hrow, mem_ascending] at hi
      exact hasNamespace_iff.1 (List.all_eq_true.1 hn i hi)
  · intro d' hd'
    obtain rfl := hrep
    by_cases e : d'.repositoryId = row.repositoryId
    · refine ⟨row, List.mem_append_right _ (List.mem_singleton_self _), e.symm, by rw [hrow], ?_⟩
      exact fun c hc hr => newest_of_same_repository h hid hc (hr.trans e)
    · have old := (mem_rows_of_other_repository e).1 hd'
      obtain ⟨c, hc, hcr, hcur, hmax⟩ := h.currentSnapshots d' old
      refine ⟨c, (mem_rows_of_other_repository (hcr ▸ e)).2 hc, hcr, hcur, fun b hb hr => ?_⟩
      exact hmax b ((mem_rows_of_other_repository (hr ▸ e)).1 hb) hr
  · exact fun _ _ _ => .trans

end Store

end CodeOutline.Graph
