import CodeOutline.Proofs.Graph.Mutation

/-!
# Refusals

Every way to write to the store is a `Mutation`: `run` carries it out on a connection, `apply` is the
store's own operation. `Refused` lists all that makes one fail, wherever it stands in its arguments, and
`apply_fails_iff` says that nothing else does. A mutation that fails on a connection to a consistent
store leaves the connection as it was, with nothing pending (`run_eq`).
-/

namespace CodeOutline.Graph

/-- The computation comes to a fault. -/
def Fails {ε α : Type} (x : Except ε α) : Prop := ∃ fault, x = .error fault

section Fails

variable {ε α β : Type} {x : Except ε α} {next : α → Except ε β}

@[simp] theorem not_fails_ok (a : α) : ¬ Fails (.ok a : Except ε α) := nofun

@[simp] theorem fails_error (fault : ε) : Fails (.error fault : Except ε α) := ⟨fault, rfl⟩

theorem fails_required {table column : String} {value : Option α} :
    Fails (required table column value) ↔ value = none := by
  cases value <;> simp [required]

/-- What comes second fails or not whatever the first has answered. -/
theorem fails_andThen {p : Prop} (h : ∀ a, Fails (next a) ↔ p) : Fails (x >>= next) ↔ Fails x ∨ p := by
  cases x <;> simp [bind, Except.bind, h]

theorem fails_last (h : ∀ a, ¬ Fails (next a)) : Fails (x >>= next) ↔ Fails x := by
  cases x <;> simp [bind, Except.bind, h]

end Fails

/-- A member that the database does not store. -/
def MemberDraft.Refused (m : MemberDraft) : Prop :=
  m.name = none ∨ m.kind ≠ "method" ∧ m.kind ≠ "field"

/-- A type that the database does not store, or not with all of its members. -/
def TypeDraft.Refused (d : TypeDraft) : Prop := d.name = none ∨ ∃ m ∈ d.members, m.Refused

theorem ofName?_eq_none {name : String} :
    MemberKind.ofName? name = none ↔ name ≠ "method" ∧ name ≠ "field" := by
  unfold MemberKind.ofName?
  split <;> simp_all

namespace Store

variable {s : Store}

theorem addMember_fails_iff {typeId : Id} {position : Nat} {m : MemberDraft} :
    Fails (s.addMember typeId position m) ↔ m.Refused := by
  refine (fails_andThen fun _ => ?_).trans (or_congr fails_required ofName?_eq_none)
  cases MemberKind.ofName? m.kind with
  | none => exact iff_of_true ⟨_, rfl⟩ rfl
  | some kind => exact iff_of_false nofun nofun

theorem addMembers_fails_iff {typeId : Id} {position : Nat} {ms : List MemberDraft} :
    Fails (s.addMembers typeId position ms) ↔ ∃ m ∈ ms, m.Refused := by
  induction ms generalizing s position with
  | nil => exact iff_of_false nofun nofun
  | cons m rest ih =>
    rw [List.exists_mem_cons_iff, addMembers_cons]
    exact (fails_andThen fun _ => ih).trans (or_congr_left addMember_fails_iff)

theorem addType_fails_iff {fileId : Id} {position : Nat} {d : TypeDraft} :
    Fails (s.addType fileId position d) ↔ d.Refused :=
  (fails_andThen fun _ => addMembers_fails_iff).trans (or_congr_left fails_required)

theorem addTypes_fails_iff {fileId : Id} {position : Nat} {ds : List TypeDraft} :
    Fails (s.addTypes fileId position ds) ↔ ∃ d ∈ ds, d.Refused := by
  induction ds generalizing s position with
  | nil => exact iff_of_false nofun nofun
  | cons d rest ih =>
    rw [List.exists_mem_cons_iff, addTypes_cons]
    exact (fails_andThen fun _ => ih).trans (or_congr_left addType_fails_iff)

theorem putRepository_fails_iff {draft : RepositoryDraft} :
    Fails (s.putRepository draft) ↔
      draft.owner = none ∨ draft.name = none ∨ draft.defaultBranch = none := by
  refine (fails_andThen fun owner => ?_).trans (or_congr_left fails_required)
  refine (fails_andThen fun name => ?_).trans (or_congr_left fails_required)
  refine (fails_last fun branch => ?_).trans fails_required
  split <;> exact not_fails_ok _

/-- Whether its key is there already is what is found out first about a namespace. -/
theorem addNamespace_eq (s : Store) (repository name : String) (parent : Option Id) :
    let row : Namespace := ⟨s.namespaces.nextId, repository, name, parent⟩
    s.addNamespace ⟨repository, name, parent⟩ =
      if (s.namespace? repository name).isSome then .error (.conflict repository name)
      else if parent.all fun p => p = row.id || s.hasNamespace p then
        .ok (row, { s with namespaces := s.namespaces.push row })
      else .error .danglingReference := by
  simp only [addNamespace, required, bind, Except.bind]
  split
  · rfl
  · rfl

theorem addNamespace_fails_iff {draft : NamespaceDraft} :
    Fails (s.addNamespace draft) ↔ draft.repository = none ∨ draft.name = none ∨
      (∃ repository name, draft.repository = some repository ∧ draft.name = some name ∧
        (s.namespace? repository name).isSome) ∨
      ∃ p, draft.parent = some p ∧ p ≠ s.namespaces.nextId ∧ ¬ s.hasNamespace p := by
  obtain ⟨repository?, name?, parent⟩ := draft
  cases repository? with
  | none => exact iff_of_true ⟨_, rfl⟩ (.inl rfl)
  | some repository =>
    cases name? with
    | none => exact iff_of_true ⟨_, rfl⟩ (.inr (.inl rfl))
    | some name =>
      rw [addNamespace_eq]
      split
      · next stored => exact iff_of_true (fails_error _) (by simp [stored])
      · next new =>
        split
        · next there =>
          refine iff_of_false (not_fails_ok _) ?_
          simpa [new, Option.all_eq_true, or_iff_not_imp_left] using there
        · next refused =>
          refine iff_of_true (fails_error _) ?_
          simpa [new, Option.all_eq_true] using refused

/-- A namespace is in conflict with the one that has its key, whatever its parent. -/
theorem addNamespace_conflict_iff {draft : NamespaceDraft} {repository name : String} :
    s.addNamespace draft = .error (.conflict repository name) ↔
      draft.repository = some repository ∧ draft.name = some name ∧
        (s.namespace? repository name).isSome := by
  obtain ⟨repository?, name?, parent⟩ := draft
  cases repository? with
  | none => exact iff_of_false nofun nofun
  | some repository' =>
    cases name? with
    | none => exact iff_of_false nofun nofun
    | some name' =>
      rw [addNamespace_eq]
      split
      · next stored =>
        constructor
        · intro e
          cases e
          exact ⟨rfl, rfl, stored⟩
        · rintro ⟨e, e', -⟩
          cases e
          cases e'
          rfl
      · next new =>
        refine iff_of_false ?_ ?_
        · split <;> exact nofun
        · rintro ⟨e, e', stored⟩
          cases e
          cases e'
          exact new stored

theorem putFile_fails_iff {draft : FileDraft} :
    Fails (s.putFile draft) ↔ draft.repository = none ∨
      (∀ i, draft.namespaceId = some i → ¬ s.hasNamespace i) ∨ draft.path = none := by
  obtain ⟨repository?, namespaceId?, path?, hash⟩ := draft
  refine (fails_andThen fun repository => ?_).trans (or_congr_left fails_required)
  cases namespaceId? with
  | none => exact iff_of_true ⟨_, rfl⟩ (.inl nofun)
  | some namespaceId =>
    cases path? with
    | none => exact iff_of_true ⟨_, rfl⟩ (.inr rfl)
    | some path =>
      simp only [required, bind, Except.bind]
      cases there : s.hasNamespace namespaceId with
      | false => exact iff_of_true ⟨_, rfl⟩ (.inl fun i e => by simp [← Option.some.inj e, there])
      | true =>
        refine iff_of_false ?_ (by simp [there])
        simp only [Bool.not_true, Bool.false_eq_true, if_false]
        split <;> exact not_fails_ok _

theorem replaceFileFacts_fails_iff {draft : FileDraft} {types : List TypeDraft} :
    Fails (s.replaceFileFacts draft types) ↔ Fails (s.putFile draft) ∨ ∃ d ∈ types, d.Refused := by
  refine fails_andThen fun (row, t) => ?_
  exact (fails_last fun _ => not_fails_ok _).trans addTypes_fails_iff

theorem saveSnapshot_fails_iff {draft : SnapshotDraft} :
    Fails (s.saveSnapshot draft) ↔
      (∀ i, draft.repositoryId = some i → ¬ s.repositories.Has (·.id) i) ∨ draft.commit = none ∨
        ∃ i ∈ draft.namespaceIds, ¬ s.hasNamespace i := by
  obtain ⟨repositoryId?, commit?, payload, exportPath, namespaceIds⟩ := draft
  cases repositoryId? with
  | none => exact iff_of_true ⟨_, rfl⟩ (.inl nofun)
  | some repositoryId =>
    cases commit? with
    | none => exact iff_of_true ⟨_, rfl⟩ (.inr (.inl rfl))
    | some commit =>
      simp only [saveSnapshot, required, bind, Except.bind]
      split
      · next ok =>
        refine iff_of_false (not_fails_ok _) ?_
        simpa [Table.Has] using ok
      · next refused =>
        refine iff_of_true ⟨_, rfl⟩ ?_
        rw [Bool.and_eq_true, not_and_or] at refused
        simpa [Table.Has] using refused

end Store

/-! ## Mutations -/

/-- A way to write to the store, by what it answers. -/
inductive Mutation : Type → Type where
  | putRepository (draft : RepositoryDraft) : Mutation Repository
  | addNamespace (draft : NamespaceDraft) : Mutation Namespace
  | replaceFileFacts (draft : FileDraft) (types : List TypeDraft) : Mutation SourceFile
  | deleteFilesExcept (repository : String) (keep : List String) : Mutation Nat
  | deleteEmptyNamespaces (repository : String) : Mutation Nat
  | saveSnapshot (draft : SnapshotDraft) : Mutation Snapshot

namespace Mutation

variable {α : Type}

def run : Mutation α → Work α
  | putRepository draft => Work.putRepository draft
  | addNamespace draft => Work.addNamespace draft
  | replaceFileFacts draft types => Work.replaceFileFacts draft types
  | deleteFilesExcept repository keep => Work.deleteFilesExcept repository keep
  | deleteEmptyNamespaces repository => Work.deleteEmptyNamespaces repository
  | saveSnapshot draft => Work.saveSnapshot draft

def apply : Mutation α → Store → Except StoreFault (α × Store)
  | putRepository draft, s => s.putRepository draft
  | addNamespace draft, s => s.addNamespace draft
  | replaceFileFacts draft types, s => s.replaceFileFacts draft types
  | deleteFilesExcept repository keep, s => .ok (s.deleteFilesExcept repository keep)
  | deleteEmptyNamespaces repository, s => .ok (s.deleteEmptyNamespaces repository)
  | saveSnapshot draft, s => s.saveSnapshot draft

/-- What the database does not store: a value is missing, a key is there already, a number refers to no
row, or a member is neither a method nor a field. -/
def Refused (s : Store) : Mutation α → Prop
  | putRepository draft => draft.owner = none ∨ draft.name = none ∨ draft.defaultBranch = none
  | addNamespace draft =>
    draft.repository = none ∨ draft.name = none ∨
      (∃ repository name, draft.repository = some repository ∧ draft.name = some name ∧
        (s.namespace? repository name).isSome) ∨
      ∃ p, draft.parent = some p ∧ p ≠ s.namespaces.nextId ∧ ¬ s.hasNamespace p
  | replaceFileFacts draft types =>
    (draft.repository = none ∨ (∀ i, draft.namespaceId = some i → ¬ s.hasNamespace i) ∨
      draft.path = none) ∨ ∃ d ∈ types, d.Refused
  | deleteFilesExcept .. => False
  | deleteEmptyNamespaces .. => False
  | saveSnapshot draft =>
    (∀ i, draft.repositoryId = some i → ¬ s.repositories.Has (·.id) i) ∨ draft.commit = none ∨
      ∃ i ∈ draft.namespaceIds, ¬ s.hasNamespace i

theorem apply_fails_iff (mutation : Mutation α) (s : Store) :
    Fails (mutation.apply s) ↔ mutation.Refused s := by
  cases mutation with
  | putRepository => exact Store.putRepository_fails_iff
  | addNamespace => exact Store.addNamespace_fails_iff
  | replaceFileFacts =>
    exact Store.replaceFileFacts_fails_iff.trans (or_congr_left Store.putFile_fails_iff)
  | deleteFilesExcept => exact iff_of_false nofun id
  | deleteEmptyNamespaces => exact iff_of_false nofun id
  | saveSnapshot => exact Store.saveSnapshot_fails_iff

/-- On a connection to a consistent store a mutation comes to what the store's operation says. If that
is a fault, what was written by then is dropped. -/
theorem run_eq {s : Store} (hs : s.Consistent) (mutation : Mutation α) :
    mutation.run { committed := s } = settled s (endingOf (mutation.apply s)) := by
  cases mutation with
  | putRepository draft => exact putRepository_settled draft s
  | addNamespace draft => exact addNamespace_settled hs draft
  | replaceFileFacts draft types => exact replaceFileFacts_settled draft types s
  | deleteFilesExcept repository keep => exact deleteFilesExcept_settled hs repository keep
  | deleteEmptyNamespaces repository => exact deleteEmptyNamespaces_settled repository s
  | saveSnapshot draft => exact saveSnapshot_settled hs draft

end Mutation

end CodeOutline.Graph
