import CodeOutline.Graph.Store
import CodeOutline.Proofs.Data.Outcome

/-!
# What the statements of the store do

One lemma for each writing statement: what a successful run of it has found, what it answers, and the
store after it. Later proofs go by these and do not open the statements.
-/

namespace CodeOutline.Graph

theorem required_eq_ok {α : Type} {table column : String} {value : Option α} {a : α} :
    required table column value = .ok a ↔ value = some a := by
  cases value <;> simp [required]

theorem MemberKind.name_of_ofName? {name : String} {kind : MemberKind}
    (h : MemberKind.ofName? name = some kind) : kind.name = name := by
  unfold MemberKind.ofName? at h
  split at h <;> cases h <;> rfl

/-- What a stored member says. -/
def MemberRow.fact (m : MemberRow) : MemberFact := ⟨m.name, m.kind, m.annotations, m.comment⟩

namespace Store

variable {s t : Store}

/-- The repository as a draft changes it. -/
def revised (old : Repository) (draft : RepositoryDraft) (branch : String) : Repository :=
  { old with
    commit := draft.commit, description := draft.description, defaultBranch := branch
    version := old.version + 1 }

theorem putRepository_ok {draft : RepositoryDraft} {row : Repository}
    (h : s.putRepository draft = .ok (row, t)) :
    ∃ owner name branch, draft.owner = some owner ∧ draft.name = some name ∧
      draft.defaultBranch = some branch ∧
      ((∃ old, s.repository? owner name = some old ∧ row = revised old draft branch ∧
          t = { s with repositories :=
            ⟨s.repositories.rows.map fun r => if r.id = old.id then row else r,
              s.repositories.nextId⟩ }) ∨
        (s.repository? owner name = none ∧
          row = ⟨s.repositories.nextId, owner, name, draft.commit, draft.description, branch, 0⟩ ∧
          t = { s with repositories := s.repositories.push row })) := by
  unfold putRepository at h
  simp only [andThen_eq_ok, required_eq_ok] at h
  obtain ⟨owner, ho, name, hn, branch, hb, h⟩ := h
  refine ⟨owner, name, branch, ho, hn, hb, ?_⟩
  split at h
  · next old hold =>
    cases h
    exact .inl ⟨old, hold, rfl, rfl⟩
  · next hnone =>
    cases h
    exact .inr ⟨hnone, rfl, rfl⟩

/-- What is known about a repository is in a table of its own. -/
theorem putRepository_frame {draft : RepositoryDraft} {row : Repository}
    (h : s.putRepository draft = .ok (row, t)) : t = { s with repositories := t.repositories } := by
  obtain ⟨_, _, _, -, -, -, ⟨_, -, -, rfl⟩ | ⟨-, -, rfl⟩⟩ := putRepository_ok h <;> rfl

theorem addNamespace_ok {draft : NamespaceDraft} {node : Namespace}
    (h : s.addNamespace draft = .ok (node, t)) :
    ∃ repository name, draft.repository = some repository ∧ draft.name = some name ∧
      s.namespace? repository name = none ∧
      node = ⟨s.namespaces.nextId, repository, name, draft.parent⟩ ∧
      (∀ p ∈ draft.parent, p = node.id ∨ s.hasNamespace p) ∧
      t = { s with namespaces := s.namespaces.push node } := by
  unfold addNamespace at h
  simp only [andThen_eq_ok, required_eq_ok] at h
  obtain ⟨repository, hr, name, hn, h⟩ := h
  split at h
  · cases h
  · next hnone =>
    split at h
    · next hp =>
      cases h
      refine ⟨repository, name, hr, hn, by simpa using hnone, rfl, ?_, rfl⟩
      simpa [Option.all_eq_true] using hp
    · cases h

theorem putFile_ok {draft : FileDraft} {row : SourceFile} (h : s.putFile draft = .ok (row, t)) :
    ∃ repository namespaceId path, draft.repository = some repository ∧
      draft.namespaceId = some namespaceId ∧ draft.path = some path ∧ s.hasNamespace namespaceId ∧
      ((∃ old, s.file? repository path = some old ∧
          row = { old with
            namespaceId := namespaceId, contentHash := draft.contentHash
            version := old.version + 1 } ∧
          t = { s with files :=
            ⟨s.files.rows.map fun f => if f.id = old.id then row else f, s.files.nextId⟩ }) ∨
        (s.file? repository path = none ∧
          row = ⟨s.files.nextId, repository, namespaceId, path, draft.contentHash, 0⟩ ∧
          t = { s with files := s.files.push row })) := by
  unfold putFile at h
  simp only [andThen_eq_ok, required_eq_ok] at h
  obtain ⟨repository, hr, namespaceId, hi, path, hp, h⟩ := h
  refine ⟨repository, namespaceId, path, hr, hi, hp, ?_⟩
  split at h
  · cases h
  · next hn =>
    refine ⟨by simpa using hn, ?_⟩
    split at h
    · next old hold =>
      cases h
      exact .inl ⟨old, hold, rfl, rfl⟩
    · next hnone =>
      cases h
      exact .inr ⟨hnone, rfl, rfl⟩

theorem addMember_ok {typeId : Id} {position : Nat} {m : MemberDraft}
    (h : s.addMember typeId position m = .ok t) :
    ∃ row : MemberRow, row.id = s.members.nextId ∧ row.typeId = typeId ∧ row.position = position ∧
      MemberFact.draft row.fact = m ∧ t = { s with members := s.members.push row } := by
  unfold addMember at h
  simp only [andThen_eq_ok, required_eq_ok] at h
  obtain ⟨name, hn, h⟩ := h
  split at h
  · cases h
  · next kind hk =>
    cases h
    refine ⟨_, rfl, rfl, rfl, ?_, rfl⟩
    obtain ⟨_, _, _, _⟩ := m
    cases hn
    simp [MemberRow.fact, MemberFact.draft, MemberKind.name_of_ofName? hk]

theorem addType_ok {fileId : Id} {position : Nat} {d : TypeDraft}
    (h : s.addType fileId position d = .ok t) :
    ∃ row : TypeRow, row.id = s.types.nextId ∧ row.fileId = fileId ∧ row.position = position ∧
      d = ⟨row.name, row.annotations, row.comment, d.members⟩ ∧
      addMembers { s with types := s.types.push row } row.id 0 d.members = .ok t := by
  unfold addType at h
  simp only [andThen_eq_ok, required_eq_ok] at h
  obtain ⟨name, hn, h⟩ := h
  refine ⟨_, rfl, rfl, rfl, ?_, h⟩
  simp [← hn]

/-! ## One after the other -/

theorem addMembers_cons (s : Store) (typeId : Id) (position : Nat) (m : MemberDraft) (rest : List MemberDraft) :
    s.addMembers typeId position (m :: rest) =
      s.addMember typeId position m >>= fun t => t.addMembers typeId (position + 1) rest := by
  rw [addMembers]
  cases s.addMember typeId position m <;> rfl

theorem addTypes_cons (s : Store) (fileId : Id) (position : Nat) (d : TypeDraft) (rest : List TypeDraft) :
    s.addTypes fileId position (d :: rest) =
      s.addType fileId position d >>= fun t => t.addTypes fileId (position + 1) rest := by
  rw [addTypes]
  cases s.addType fileId position d <;> rfl

/-! ## Frames -/

theorem addMembers_frame {typeId : Id} {position : Nat} {ms : List MemberDraft}
    (h : addMembers s typeId position ms = .ok t) : t = { s with members := t.members } := by
  induction ms generalizing s position with
  | nil =>
    cases h
    rfl
  | cons m rest ih =>
    simp only [addMembers] at h
    split at h
    · next u hu =>
      obtain ⟨row, -, -, -, -, rfl⟩ := addMember_ok hu
      exact (ih h).trans rfl
    · cases h

theorem addType_frame {fileId : Id} {position : Nat} {d : TypeDraft}
    (h : s.addType fileId position d = .ok t) :
    ∃ row : TypeRow, row.fileId = fileId ∧
      t = { s with types := s.types.push row, members := t.members } := by
  obtain ⟨row, -, hf, -, -, h⟩ := addType_ok h
  exact ⟨row, hf, addMembers_frame h⟩

theorem addTypes_frame {fileId : Id} {position : Nat} {ds : List TypeDraft}
    (h : addTypes s fileId position ds = .ok t) :
    t = { s with types := t.types, members := t.members } := by
  induction ds generalizing s position with
  | nil =>
    cases h
    rfl
  | cons d rest ih =>
    simp only [addTypes] at h
    split at h
    · next u hu =>
      obtain ⟨row, -, e⟩ := addType_frame hu
      rw [e] at h
      exact (ih h).trans rfl
    · cases h

/-! ## Facts of a file -/

/-- The types are written after what was stored for the file is gone. -/
theorem replaceFileFacts_ok {draft : FileDraft} {types : List TypeDraft} {row : SourceFile}
    (h : s.replaceFileFacts draft types = .ok (row, t)) :
    ∃ u, s.putFile draft = .ok (row, u) ∧
      (u.dropTypes (·.fileId = row.id)).addTypes row.id 0 types = .ok t := by
  unfold replaceFileFacts at h
  simp only [andThen_eq_ok] at h
  obtain ⟨⟨row', u⟩, hu, v, hv, h⟩ := h
  cases h
  exact ⟨u, hu, hv⟩

theorem putFile_frame {draft : FileDraft} {row : SourceFile} (h : s.putFile draft = .ok (row, t)) :
    t = { s with files := t.files } := by
  obtain ⟨_, _, _, -, -, -, -, ⟨_, -, -, rfl⟩ | ⟨-, -, rfl⟩⟩ := putFile_ok h <;> rfl

/-- Only the tables of files, types and members change, that of files by the row of the file. -/
theorem replaceFileFacts_frame {draft : FileDraft} {types : List TypeDraft} {row : SourceFile}
    (h : s.replaceFileFacts draft types = .ok (row, t)) :
    s.putFile draft = .ok (row, { s with files := t.files }) ∧
      t = { s with files := t.files, types := t.types, members := t.members } := by
  obtain ⟨u, hu, h⟩ := replaceFileFacts_ok h
  have e := putFile_frame hu
  have e' : t = { u with types := t.types, members := t.members } :=
    (addTypes_frame h).trans rfl
  have hf : t.files = u.files := by rw [e']
  rw [hf, ← e]
  exact ⟨hu, e'.trans (by rw [e])⟩

/-! ## Facts are always accepted -/

theorem exists_addMembers (s : Store) (typeId : Id) (position : Nat) (ms : List MemberFact) :
    ∃ t, addMembers s typeId position (ms.map MemberFact.draft) = .ok t := by
  induction ms generalizing s position with
  | nil => exact ⟨s, rfl⟩
  | cons m rest ih =>
    have : ∃ u, s.addMember typeId position (MemberFact.draft m) = .ok u := by
      simp [addMember, MemberFact.draft, required, MemberKind.ofName?_name, bind, Except.bind, pure,
        Except.pure]
    obtain ⟨u, hu⟩ := this
    simp only [List.map_cons, addMembers, hu]
    exact ih u (position + 1)

theorem exists_addTypes (s : Store) (fileId : Id) (position : Nat) (types : List TypeFact) :
    ∃ t, addTypes s fileId position (types.map TypeFact.draft) = .ok t := by
  induction types generalizing s position with
  | nil => exact ⟨s, rfl⟩
  | cons type rest ih =>
    have : ∃ u, s.addType fileId position (TypeFact.draft type) = .ok u := by
      simp only [addType, TypeFact.draft, required, bind, Except.bind]
      exact exists_addMembers ..
    obtain ⟨u, hu⟩ := this
    simp only [List.map_cons, addTypes, hu]
    exact ih u (position + 1)

/-- Replacing the facts of a file by facts cannot fail where the file's namespace is there. -/
theorem exists_replaceFileFacts {namespaceId : Id} (h : s.hasNamespace namespaceId)
    (repository path hash : String) (types : List TypeFact) :
    ∃ row t, s.replaceFileFacts ⟨repository, namespaceId, path, hash⟩ (types.map TypeFact.draft) =
      .ok (row, t) := by
  have : ∃ row u, s.putFile ⟨repository, namespaceId, path, hash⟩ = .ok (row, u) := by
    simp only [putFile, required, bind, Except.bind, h, Bool.not_true, Bool.false_eq_true, if_false]
    split <;> exact ⟨_, _, rfl⟩
  obtain ⟨row, u, hu⟩ := this
  obtain ⟨t, ht⟩ := exists_addTypes (u.dropTypes (·.fileId = row.id)) row.id 0 types
  exact ⟨row, t, by simp only [replaceFileFacts, hu, bind, Except.bind, ht]; rfl⟩

/-! ## Documents -/

/-- The document as it is after another one has become current. -/
def demotedBy (repositoryId : Id) (old : Snapshot) : Snapshot :=
  if old.repositoryId = repositoryId && old.isCurrent then
    { old with isCurrent := false, version := old.version + 1 }
  else old

theorem saveSnapshot_ok {draft : SnapshotDraft} {row : Snapshot}
    (h : s.saveSnapshot draft = .ok (row, t)) :
    ∃ repositoryId commit, draft.repositoryId = some repositoryId ∧ draft.commit = some commit ∧
      s.repositories.rows.any (·.id = repositoryId) ∧ draft.namespaceIds.all s.hasNamespace ∧
      row = ⟨s.snapshots.nextId, repositoryId, commit, draft.payload, draft.exportPath,
        ascending draft.namespaceIds, true, 0⟩ ∧
      t = { s with
        snapshots := .push ⟨s.snapshots.rows.map (demotedBy repositoryId), s.snapshots.lastId⟩ row } := by
  unfold saveSnapshot at h
  simp only [andThen_eq_ok, required_eq_ok] at h
  obtain ⟨repositoryId, hr, commit, hc, h⟩ := h
  split at h
  · next hok =>
    cases h
    obtain ⟨h₁, h₂⟩ := Bool.and_eq_true_iff.1 hok
    exact ⟨repositoryId, commit, hr, hc, h₁, h₂, rfl, rfl⟩
  · cases h

/-- What is known about a repository is accepted where nothing is missing. -/
theorem exists_putRepository {draft : RepositoryDraft} {owner name branch : String}
    (howner : draft.owner = some owner) (hname : draft.name = some name)
    (hbranch : draft.defaultBranch = some branch) (s : Store) :
    ∃ row t, s.putRepository draft = .ok (row, t) := by
  simp only [putRepository, howner, hname, hbranch, required, bind, Except.bind]
  split <;> exact ⟨_, _, rfl⟩

/-- A document is accepted where its repository and its namespaces are there. -/
theorem exists_saveSnapshot {repository : Repository} {namespaceIds : List Id}
    (hr : repository ∈ s.repositories.rows) (hn : ∀ i ∈ namespaceIds, s.hasNamespace i)
    (commit payload : String) (exportPath : Option String) :
    ∃ saved, s.saveSnapshot ⟨repository.id, commit, payload, exportPath, namespaceIds⟩ =
      .ok saved := by
  have there : (s.repositories.rows.any (·.id = repository.id) && namespaceIds.all s.hasNamespace) =
      true := by
    rw [Bool.and_eq_true, List.any_eq_true, List.all_eq_true]
    exact ⟨⟨repository, hr, decide_eq_true rfl⟩, hn⟩
  simp only [saveSnapshot, required, bind, Except.bind, there, if_true]
  exact ⟨_, rfl⟩

end Store

end CodeOutline.Graph
