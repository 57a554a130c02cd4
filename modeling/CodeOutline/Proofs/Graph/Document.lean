import CodeOutline.Proofs.Graph.FactStep

/-!
# Saved documents

The documents of a repository, found by its owner and name. What is known about repositories may
change, and facts may come and go: the documents stay, and so does which of them is current. Saving one
makes it the current one of its repository, before all others, and touches no other repository.
-/

namespace CodeOutline.Graph.Store

/-- The document that stands for the repository of that owner and name. -/
def currentOf (s : Store) (owner name : String) : Option Snapshot :=
  (s.repository? owner name).bind fun r => s.currentSnapshot? r.id

/-- The documents of the repository of that owner and name, newest first. -/
def documentsOf (s : Store) (owner name : String) : List Snapshot :=
  (s.repository? owner name).elim [] fun r => s.snapshotsOf r.id

variable {s t : Store}

/-! ## Documents by number -/

theorem currentSnapshot?_eq_none {i : Id} (h : ∀ d ∈ s.snapshots.rows, d.repositoryId ≠ i) :
    s.currentSnapshot? i = none := by
  refine List.find?_eq_none.2 fun d hd => ?_
  simp [h d hd]

theorem snapshotsOf_eq_nil {i : Id} (h : ∀ d ∈ s.snapshots.rows, d.repositoryId ≠ i) :
    s.snapshotsOf i = [] := by
  unfold snapshotsOf
  rw [List.filter_eq_nil_iff.2 fun d hd => by simpa using h d hd, List.reverse_nil]

/-- The current document, but for its links, is found among all documents without theirs. -/
theorem currentSnapshot?_core (s : Store) (i : Id) :
    (s.currentSnapshot? i).map Snapshot.core =
      (s.snapshots.rows.map Snapshot.core).find? fun d => d.repositoryId = i && d.isCurrent := by
  rw [List.find?_map]
  rfl

theorem snapshotsOf_core (s : Store) (i : Id) :
    (s.snapshotsOf i).map Snapshot.core =
      ((s.snapshots.rows.map Snapshot.core).filter (·.repositoryId = i)).reverse := by
  unfold snapshotsOf
  rw [List.filter_map, ← List.map_reverse]
  rfl

/-- Facts come and go without any change to the documents of a repository but for their links. -/
theorem FactRun.documents {key : String} (h : FactRun key s t) (owner name : String) :
    (t.currentOf owner name).map Snapshot.core = (s.currentOf owner name).map Snapshot.core ∧
      (t.documentsOf owner name).map Snapshot.core =
        (s.documentsOf owner name).map Snapshot.core := by
  have hr : t.repository? owner name = s.repository? owner name := by
    rw [repository?, h.repositories, repository?]
  have hd := h.snapshots.2
  unfold currentOf documentsOf
  rw [hr]
  cases s.repository? owner name with
  | none => exact ⟨rfl, rfl⟩
  | some r =>
    rw [Option.bind_some, Option.bind_some, Option.elim_some, Option.elim_some]
    rw [currentSnapshot?_core, currentSnapshot?_core, snapshotsOf_core, snapshotsOf_core, hd]
    exact ⟨rfl, rfl⟩

/-! ## Repositories -/

/-- A repository is found by its owner and name. -/
theorem Consistent.repository?_eq (h : s.Consistent) {r : Repository}
    (hr : r ∈ s.repositories.rows) : s.repository? r.owner r.name = some r := by
  cases hfind : s.repository? r.owner r.name with
  | none =>
    exact absurd (List.mem_map.2 ⟨r, hr, rfl⟩) (repository?_eq_none.1 hfind)
  | some q =>
    obtain ⟨hq, howner, hname⟩ := repository?_eq_some hfind
    rw [List.inj_on_of_nodup_map h.repositoryKeys hq hr (Prod.ext howner hname)]

/-- The documents of all repositories stay where repositories keep their numbers, and a new one has a
number that no document refers to. -/
theorem documents_of_kept (hs : s.Consistent) (ht : t.Consistent) (hd : t.snapshots = s.snapshots)
    (kept : ∀ r ∈ s.repositories.rows, ∃ r' ∈ t.repositories.rows, r.SameKey r' ∧ r'.id = r.id)
    (new : ∀ r' ∈ t.repositories.rows, (∃ r ∈ s.repositories.rows, r.SameKey r') ∨
      ¬ s.repositories.Has (·.id) r'.id) (owner name : String) :
    t.currentOf owner name = s.currentOf owner name ∧
      t.documentsOf owner name = s.documentsOf owner name := by
  have byId (i : Id) : t.currentSnapshot? i = s.currentSnapshot? i ∧
      t.snapshotsOf i = s.snapshotsOf i := by
    unfold currentSnapshot? snapshotsOf
    rw [hd]
    exact ⟨rfl, rfl⟩
  unfold currentOf documentsOf
  cases hfind : s.repository? owner name with
  | some r =>
    obtain ⟨hr, rfl, rfl⟩ := repository?_eq_some hfind
    obtain ⟨r', hr', ⟨howner, hname⟩, hid⟩ := kept r hr
    rw [howner, hname, ht.repository?_eq hr', Option.bind_some, Option.bind_some, Option.elim_some,
      Option.elim_some, hid]
    exact byId r.id
  | none =>
    cases hfind' : t.repository? owner name with
    | none => exact ⟨rfl, rfl⟩
    | some r' =>
      obtain ⟨hr', rfl, rfl⟩ := repository?_eq_some hfind'
      rcases new r' hr' with ⟨r, hr, howner, hname⟩ | fresh
      · rw [← howner, ← hname, hs.repository?_eq hr] at hfind
        cases hfind
      · have unused : ∀ d ∈ s.snapshots.rows, d.repositoryId ≠ r'.id :=
          fun d hmem e => fresh (e ▸ hs.snapshotRepositories d hmem)
        rw [Option.bind_some, Option.elim_some, (byId r'.id).1, (byId r'.id).2,
          currentSnapshot?_eq_none unused, snapshotsOf_eq_nil unused]
        exact ⟨rfl, rfl⟩

/-- What is stored about a repository is what its draft says, under the draft's owner and name. The
documents of all repositories stay as they are. -/
theorem putRepository_documents {draft : RepositoryDraft} {row : Repository} (h : s.Consistent)
    (ok : s.putRepository draft = .ok (row, t)) :
    draft.owner = some row.owner ∧ draft.name = some row.name ∧ row.commit = draft.commit ∧
      row.description = draft.description ∧ row ∈ t.repositories.rows ∧
      ∀ owner name, t.currentOf owner name = s.currentOf owner name ∧
        t.documentsOf owner name = s.documentsOf owner name := by
  obtain ⟨ht, -⟩ := h.putRepository ok
  obtain ⟨owner, name, branch, howner, hname, -, ⟨old, hold, hrow, rfl⟩ | ⟨-, rfl, rfl⟩⟩ :=
    putRepository_ok ok
  · obtain ⟨hmem, hoo, hon⟩ := repository?_eq_some hold
    have key : old.SameKey row := by rw [hrow]; exact ⟨rfl, rfl⟩
    have hid : row.id = old.id := by rw [hrow, revised]
    have same : ∀ r ∈ s.repositories.rows, r.SameKey (if r.id = old.id then row else r) := by
      intro r hr
      split
      · next e => rwa [h.repositoryIds.eq_of_id hr hmem e]
      · exact ⟨rfl, rfl⟩
    refine ⟨by rw [howner, ← hoo, key.1], by rw [hname, ← hon, key.2], by rw [hrow, revised],
      by rw [hrow, revised], List.mem_map.2 ⟨old, hmem, if_pos rfl⟩,
      documents_of_kept h ht rfl (fun r hr => ⟨_, List.mem_map_of_mem hr, same r hr, ?_⟩)
        fun r' hr' => .inl ?_⟩
    · split
      · next e => rw [hid, e]
      · rfl
    · obtain ⟨r, hr, rfl⟩ := List.mem_map.1 hr'
      exact ⟨r, hr, same r hr⟩
  · refine ⟨howner, hname, rfl, rfl, List.mem_append_right _ (List.mem_singleton_self _),
      documents_of_kept h ht rfl
        (fun r hr => ⟨r, List.mem_append_left _ hr, ⟨rfl, rfl⟩, rfl⟩) fun r' hr' => ?_⟩
    rcases List.mem_append.1 hr' with hr' | hr'
    · exact .inl ⟨r', hr', rfl, rfl⟩
    · rw [List.mem_singleton.1 hr']
      exact .inr h.repositoryIds.nextId_fresh

/-- What is known about a repository can be stored once more where it is still there. It changes
nothing but how often the row has been written. -/
theorem putRepository_twice {u : Store} {draft : RepositoryDraft} {row : Repository}
    (ok : s.putRepository draft = .ok (row, t)) (hu : u.Consistent)
    (mem : row ∈ u.repositories.rows) :
    ∃ u', u.putRepository draft = .ok ({ row with version := row.version + 1 }, u') := by
  obtain ⟨owner, name, branch, howner, hname, hbranch, stored⟩ := putRepository_ok ok
  have fields : row.owner = owner ∧ row.name = name ∧
      revised row draft branch = { row with version := row.version + 1 } := by
    rcases stored with ⟨old, hold, rfl, -⟩ | ⟨-, rfl, -⟩
    · obtain ⟨-, ho, hn⟩ := repository?_eq_some hold
      exact ⟨ho, hn, rfl⟩
    · exact ⟨rfl, rfl, rfl⟩
  obtain ⟨rfl, rfl, same⟩ := fields
  simp only [putRepository, howner, hname, hbranch, required, bind, Except.bind,
    hu.repository?_eq mem]
  exact ⟨_, congrArg (fun r => Except.ok (r, _)) same⟩

/-! ## New documents -/

/-- Of the documents of another repository none is demoted. -/
theorem filter_demotedBy {i j : Id} (hij : i ≠ j) (p : Snapshot → Bool)
    (hp : ∀ d, p d → d.repositoryId = i) (rows : List Snapshot) :
    (rows.map (demotedBy j)).filter p = rows.filter p := by
  induction rows with
  | nil => rfl
  | cons d rest ih =>
    rw [List.map_cons, List.filter_cons, List.filter_cons, ih]
    rcases demotedBy_cases j d with ⟨hj, -⟩ | ⟨-, hd⟩
    · have no (e : Snapshot) (he : e.repositoryId = j) : p e = false := by
        rw [← Bool.not_eq_true]
        exact fun hpe => hij ((hp e hpe).symm.trans he)
      rw [no d hj, no _ ((demotedBy_same _ d).1.symm.trans hj), if_neg Bool.false_ne_true,
        if_neg Bool.false_ne_true]
    · rw [hd]

theorem saveSnapshot_other {draft : SnapshotDraft} {row : Snapshot} {i : Id}
    (ok : s.saveSnapshot draft = .ok (row, t)) (hi : i ≠ row.repositoryId) :
    t.currentSnapshot? i = s.currentSnapshot? i ∧ t.snapshotsOf i = s.snapshotsOf i := by
  obtain ⟨j, commit, -, -, -, -, hrow, rfl⟩ := saveSnapshot_ok ok
  have hj : row.repositoryId = j := by rw [hrow]
  rw [hj] at hi
  have filtered (p : Snapshot → Bool) (hp : ∀ d, p d → d.repositoryId = i) :
      (s.snapshots.rows.map (demotedBy j) ++ [row]).filter p = s.snapshots.rows.filter p := by
    have no : p row = false := by
      rw [← Bool.not_eq_true]
      exact fun hrow => hi ((hp row hrow).symm.trans hj)
    rw [List.filter_append, filter_demotedBy hi p hp, List.filter_singleton, no]
    exact List.append_nil _
  unfold currentSnapshot? snapshotsOf Table.push
  have current := filtered (fun d => d.repositoryId = i && d.isCurrent) fun d hd =>
    of_decide_eq_true (Bool.and_eq_true_iff.1 hd).1
  rw [← List.head?_filter, ← List.head?_filter, current,
    filtered _ fun d hd => of_decide_eq_true hd]
  exact ⟨rfl, rfl⟩

theorem saveSnapshot_own {draft : SnapshotDraft} {row : Snapshot}
    (ok : s.saveSnapshot draft = .ok (row, t)) :
    t.currentSnapshot? row.repositoryId = some row ∧
      t.snapshotsOf row.repositoryId =
        row :: (s.snapshotsOf row.repositoryId).map (demotedBy row.repositoryId) := by
  obtain ⟨j, commit, -, -, -, -, hrow, rfl⟩ := saveSnapshot_ok ok
  have hj : row.repositoryId = j := by rw [hrow]
  have hcurrent : row.isCurrent = true := by rw [hrow]
  rw [hj]
  unfold currentSnapshot? snapshotsOf Table.push
  constructor
  · have none : (s.snapshots.rows.map (demotedBy j)).find?
        (fun d => d.repositoryId = j && d.isCurrent) = none := by
      refine List.find?_eq_none.2 fun d hd => ?_
      obtain ⟨e, he, rfl⟩ := List.mem_map.1 hd
      rcases demotedBy_cases j e with ⟨-, hno⟩ | ⟨hne, hsame⟩
      · simp [hno]
      · simp [hsame, hne]
    rw [List.find?_append, none, Option.none_or, List.find?_singleton]
    simp [hj, hcurrent]
  · rw [List.filter_append, List.filter_map, List.filter_singleton]
    have same : (fun d : Snapshot => decide (d.repositoryId = j)) ∘ demotedBy j =
        fun d => decide (d.repositoryId = j) := by
      funext d
      simp only [Function.comp_apply, ← (demotedBy_same j d).1]
    simp [same, hj, List.map_reverse]

/-- A document that is saved becomes the current one of its repository, before all others. -/
theorem saveSnapshot_documents {draft : SnapshotDraft} {row : Snapshot} {repository : Repository}
    (h : s.Consistent) (hr : repository ∈ s.repositories.rows)
    (hd : draft.repositoryId = some repository.id) (ok : s.saveSnapshot draft = .ok (row, t)) :
    t.currentOf repository.owner repository.name = some row ∧
      t.documentsOf repository.owner repository.name =
        row :: (s.documentsOf repository.owner repository.name).map (demotedBy repository.id) ∧
      ∀ owner name, (repository.owner, repository.name) ≠ (owner, name) →
        t.currentOf owner name = s.currentOf owner name ∧
          t.documentsOf owner name = s.documentsOf owner name := by
  obtain ⟨j, commit, hj, -, -, -, hrow, ht⟩ := saveSnapshot_ok ok
  have hid : row.repositoryId = repository.id := by
    rw [hrow]
    exact Option.some.inj (hj.symm.trans hd)
  have hfind (owner name : String) : t.repository? owner name = s.repository? owner name := by
    rw [ht]
    rfl
  obtain ⟨hcurrent, hdocuments⟩ := saveSnapshot_own ok
  rw [hid] at hcurrent hdocuments
  unfold currentOf documentsOf
  refine ⟨?_, ?_, fun owner name hne => ?_⟩
  · rw [hfind, h.repository?_eq hr]
    exact hcurrent
  · rw [hfind, h.repository?_eq hr]
    exact hdocuments
  · rw [hfind]
    cases hother : s.repository? owner name with
    | none => exact ⟨rfl, rfl⟩
    | some r =>
      obtain ⟨hmem, rfl, rfl⟩ := repository?_eq_some hother
      have hne' : r.id ≠ row.repositoryId := by
        rw [hid]
        exact fun e => hne (by rw [h.repositoryIds.eq_of_id hmem hr e])
      exact saveSnapshot_other ok hne'

end CodeOutline.Graph.Store
