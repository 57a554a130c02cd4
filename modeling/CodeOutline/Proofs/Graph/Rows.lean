import CodeOutline.Proofs.Graph.Document
import CodeOutline.Proofs.Graph.Stored

/-!
# Rows of one repository

All repositories share the six tables. Which rows belong to one of them is seen from their keys, and
below the files from the numbers that they refer to: `rowsOf` has all of them, table by table.

A statement that is made for one repository leaves the rows of all others exactly as they are. Numbers
stand for one row, so types and members go with files of their own repository; a document could lose a
link when namespaces of another repository are removed, and that it does not is due to `OwnLinks`:
documents link to namespaces of their own repositories only.
-/

namespace CodeOutline.Graph

/-- Rows of the six tables. -/
structure Rows where
  repositories : List Repository
  namespaces : List Namespace
  files : List SourceFile
  types : List TypeRow
  members : List MemberRow
  snapshots : List Snapshot
  deriving Repr, DecidableEq

/-! ## Keys -/

/-- Without a slash in the owner, a slug is read back. -/
theorem slugOf_injective {owner name owner' name' : String} (h : '/' ∉ owner.toList)
    (h' : '/' ∉ owner'.toList) (e : slugOf owner name = slugOf owner' name') :
    owner = owner' ∧ name = name' := by
  have chars := congrArg String.toList e
  rw [toList_slugOf, toList_slugOf] at chars
  have before {l : List Char} (hl : '/' ∉ l) (rest : List Char) :
      (l ++ '/' :: rest).takeWhile (· != '/') = l := by
    have all : ∀ c ∈ l, (c != '/') = true := by
      intro c hc
      rw [bne_iff_ne]
      exact fun e => hl (e ▸ hc)
    rw [List.takeWhile_append_of_pos all, List.takeWhile_cons_of_neg (by decide), List.append_nil]
  have owners := congrArg (List.takeWhile (· != '/')) chars
  rw [before h, before h'] at owners
  rw [owners, List.append_cancel_left_eq, List.cons.injEq] at chars
  exact ⟨String.toList_inj.1 owners, String.toList_inj.1 chars.2⟩

namespace Store

/-- All rows of a store. -/
def rows (s : Store) : Rows where
  repositories := s.repositories.rows
  namespaces := s.namespaces.rows
  files := s.files.rows
  types := s.types.rows
  members := s.members.rows
  snapshots := s.snapshots.rows

def repositoriesOf (s : Store) (owner name : String) : List Repository :=
  s.repositories.rows.filter fun r => r.owner = owner && r.name = name

def filesOf (s : Store) (key : String) : List SourceFile :=
  s.files.rows.filter (·.repository = key)

/-- The types of a repository's files. -/
def typesOf (s : Store) (key : String) : List TypeRow :=
  s.types.rows.filter fun u => (s.filesOf key).any (·.id = u.fileId)

/-- The members of the types of a repository's files. -/
def membersOf (s : Store) (key : String) : List MemberRow :=
  s.members.rows.filter fun m => (s.typesOf key).any (·.id = m.typeId)

/-- The rows that belong to the repository of that owner and name. -/
def rowsOf (s : Store) (owner name : String) : Rows where
  repositories := s.repositoriesOf owner name
  namespaces := s.namespacesOf (slugOf owner name)
  files := s.filesOf (slugOf owner name)
  types := s.typesOf (slugOf owner name)
  members := s.membersOf (slugOf owner name)
  snapshots := s.snapshots.rows.filter fun d => (s.repositoriesOf owner name).any (·.id = d.repositoryId)

/-- Documents link to namespaces of their own repositories. -/
def OwnLinks (s : Store) : Prop :=
  ∀ d ∈ s.snapshots.rows, ∀ i ∈ d.namespaceIds, ∃ r ∈ s.repositories.rows, r.id = d.repositoryId ∧
    ∃ n ∈ s.namespaces.rows, n.id = i ∧ n.repository = r.graphKey

theorem ownLinks_empty : OwnLinks {} := nofun

variable {s t : Store} {key other owner name : String}

/-! ## Rows that a test does not accept -/

/-- What changes before and after only rows that are not accepted changes nothing of those that
are. -/
theorem filter_map_of_untouched {α : Type} {p : α → Bool} {f : α → α} {rows : List α}
    (h : ∀ r ∈ rows, f r = r ∨ p r = false ∧ p (f r) = false) :
    (rows.map f).filter p = rows.filter p := by
  induction rows with
  | nil => rfl
  | cons r rest ih =>
    rw [List.map_cons, List.filter_cons, List.filter_cons,
      ih fun q hq => h q (List.mem_cons_of_mem _ hq)]
    rcases h r (List.mem_cons_self ..) with same | ⟨no, no'⟩
    · rw [same]
    · rw [no, no']
      rfl

theorem filter_push_of_other {α : Type} {p : α → Bool} {t : Table α} {row : α} (h : p row = false) :
    (t.push row).rows.filter p = t.rows.filter p := by
  unfold Table.push
  rw [List.filter_append, List.filter_singleton, h]
  exact List.append_nil _

/-- Rows that go together with others that are not accepted do not count either. -/
theorem filter_filter_of_kept {α : Type} {p q : α → Bool} {rows : List α}
    (h : ∀ r ∈ rows, p r → q r) : (rows.filter q).filter p = rows.filter p := by
  rw [List.filter_filter]
  refine List.filter_congr fun r hr => ?_
  cases hp : p r with
  | false => rfl
  | true => rw [h r hr hp, Bool.true_and]

/-! ## Repositories -/

/-- What is known about one repository is no row of another one. -/
theorem putRepository_rowsOf {draft : RepositoryDraft} {row : Repository} (h : s.Consistent)
    (ok : s.putRepository draft = .ok (row, t)) (hne : (row.owner, row.name) ≠ (owner, name)) :
    t.rowsOf owner name = s.rowsOf owner name := by
  have no {r : Repository} (hr : r.SameKey row) :
      (decide (r.owner = owner) && decide (r.name = name)) = false := by
    rw [← Bool.not_eq_true, Bool.and_eq_true, decide_eq_true_eq, decide_eq_true_eq]
    rintro ⟨ho, hn⟩
    exact hne (Prod.ext (hr.1.symm.trans ho) (hr.2.symm.trans hn))
  have repositories : t.repositoriesOf owner name = s.repositoriesOf owner name := by
    obtain ⟨o, n, branch, -, -, -, ⟨old, hold, hrow, rfl⟩ | ⟨-, -, rfl⟩⟩ := putRepository_ok ok
    · obtain ⟨hmem, -, -⟩ := repository?_eq_some hold
      have same : old.SameKey row := by
        rw [hrow]
        exact ⟨rfl, rfl⟩
      refine filter_map_of_untouched fun r hr => ?_
      split
      · next e =>
        obtain rfl := h.repositoryIds.eq_of_id hr hmem e
        exact .inr ⟨no same, no ⟨rfl, rfl⟩⟩
      · exact .inl rfl
    · exact filter_push_of_other (no ⟨rfl, rfl⟩)
  rw [putRepository_frame ok] at repositories ⊢
  unfold rowsOf
  rw [repositories]
  rfl

/-- A repository keeps its number and its key. -/
theorem putRepository_kept {draft : RepositoryDraft} {row r : Repository} (h : s.Consistent)
    (ok : s.putRepository draft = .ok (row, t)) (hr : r ∈ s.repositories.rows) :
    ∃ r' ∈ t.repositories.rows, r'.id = r.id ∧ r.SameKey r' := by
  obtain ⟨o, n, branch, -, -, -, ⟨old, hold, hrow, rfl⟩ | ⟨-, -, rfl⟩⟩ := putRepository_ok ok
  · obtain ⟨hmem, -, -⟩ := repository?_eq_some hold
    have same : row.id = old.id ∧ old.SameKey row := by
      rw [hrow]
      exact ⟨rfl, rfl, rfl⟩
    refine ⟨_, List.mem_map_of_mem hr, ?_⟩
    split
    · next e =>
      obtain rfl := h.repositoryIds.eq_of_id hr hmem e
      exact same
    · exact ⟨rfl, rfl, rfl⟩
  · exact ⟨r, List.mem_append_left _ hr, rfl, rfl, rfl⟩

theorem OwnLinks.putRepository {draft : RepositoryDraft} {row : Repository} (h : s.OwnLinks)
    (hs : s.Consistent) (ok : s.putRepository draft = .ok (row, t)) : t.OwnLinks := by
  intro d hd i hi
  have frame := putRepository_frame ok
  have old : d ∈ s.snapshots.rows := by rwa [frame] at hd
  obtain ⟨r, hr, hid, n, hn, hni, hown⟩ := h d old i hi
  obtain ⟨r', hr', hid', howner, hname⟩ := putRepository_kept hs ok hr
  refine ⟨r', hr', hid'.trans hid, n, by rwa [frame], hni, hown.trans ?_⟩
  rw [Repository.graphKey, Repository.slug, howner, hname]
  rfl

/-! ## Files, types and members -/

/-- A file of another key has another number. -/
theorem Consistent.id_ne_of_filesOf (h : s.Consistent) {f g : SourceFile} (hf : f ∈ s.files.rows)
    (hkey : f.repository ≠ other) (hg : g ∈ s.filesOf other) : g.id ≠ f.id := by
  intro e
  obtain ⟨hg, hother⟩ := List.mem_filter.1 hg
  rw [h.fileIds.eq_of_id hg hf e] at hother
  exact hkey (of_decide_eq_true hother)

theorem putFile_filesOf {draft : FileDraft} {row : SourceFile} (h : s.Consistent)
    (ok : s.putFile draft = .ok (row, t)) (hne : row.repository ≠ other) :
    t.filesOf other = s.filesOf other := by
  obtain ⟨_, _, _, -, -, -, -, ⟨old, hold, hrow, rfl⟩ | ⟨-, -, rfl⟩⟩ := putFile_ok ok
  · obtain ⟨hmem, -, -⟩ := file?_eq_some hold
    refine filter_map_of_untouched fun f hf => ?_
    split
    · next e =>
      obtain rfl := h.fileIds.eq_of_id hf hmem e
      have same : row.repository = f.repository := by rw [hrow]
      exact .inr ⟨decide_eq_false (same ▸ hne), decide_eq_false hne⟩
    · exact .inl rfl
  · exact filter_push_of_other (decide_eq_false hne)

/-- Types that are no types of the repository's files go without any change to those that are, and so
do their members. -/
theorem dropTypes_of_other (h : s.Consistent) (doomed : Id → Bool)
    (kept : ∀ f ∈ s.filesOf other, doomed f.id = false) :
    (s.dropTypes fun u => doomed u.fileId).typesOf other = s.typesOf other ∧
      (s.dropTypes fun u => doomed u.fileId).membersOf other = s.membersOf other := by
  have safe : ∀ u ∈ s.typesOf other, doomed u.fileId = false := by
    intro u hu
    obtain ⟨f, hf, e⟩ := List.any_eq_true.1 (List.mem_filter.1 hu).2
    rw [← of_decide_eq_true e]
    exact kept f hf
  have types : (s.dropTypes fun u => doomed u.fileId).typesOf other = s.typesOf other := by
    refine filter_filter_of_kept fun u hu own => ?_
    have live := safe u (List.mem_filter.2 ⟨hu, own⟩)
    exact congrArg not live
  refine ⟨types, ?_⟩
  unfold membersOf
  rw [types]
  refine filter_filter_of_kept fun m _ own => ?_
  obtain ⟨u, hu, e⟩ := List.any_eq_true.1 own
  rw [Bool.not_eq_true', List.contains_eq_mem, decide_eq_false_iff_not]
  intro gone
  obtain ⟨v, hv, e'⟩ := List.mem_map.1 gone
  obtain ⟨hv, hdoomed⟩ := List.mem_filter.1 hv
  have same := h.typeIds.eq_of_id hv (List.mem_filter.1 hu).1 (e'.trans (of_decide_eq_true e).symm)
  rw [same, safe u hu] at hdoomed
  cases hdoomed

/-- Members are written after all others, for their type. -/
theorem addMembers_rows {typeId : Id} {position : Nat} {ms : List MemberDraft}
    (ok : addMembers s typeId position ms = .ok t) :
    ∃ new, t.members.rows = s.members.rows ++ new ∧ ∀ m ∈ new, m.typeId = typeId := by
  induction ms generalizing s position with
  | nil =>
    cases ok
    exact ⟨[], (List.append_nil _).symm, nofun⟩
  | cons m rest ih =>
    simp only [addMembers] at ok
    split at ok
    · next u hu =>
      obtain ⟨row, -, htype, -, -, rfl⟩ := addMember_ok hu
      obtain ⟨new, hnew, own⟩ := ih ok
      refine ⟨row :: new, ?_, ?_⟩
      · rw [hnew]
        exact List.append_assoc _ [row] new
      · intro x hx
        rcases List.mem_cons.1 hx with rfl | hx
        · exact htype
        · exact own x hx
    · cases ok

/-- Types are written after all others, for their file, and members for these types. -/
theorem addTypes_rows {fileId : Id} {position : Nat} {ds : List TypeDraft}
    (ok : addTypes s fileId position ds = .ok t) :
    ∃ types members, t.types.rows = s.types.rows ++ types ∧
      t.members.rows = s.members.rows ++ members ∧ (∀ u ∈ types, u.fileId = fileId) ∧
      ∀ m ∈ members, ∃ u ∈ types, u.id = m.typeId := by
  induction ds generalizing s position with
  | nil =>
    cases ok
    exact ⟨[], [], (List.append_nil _).symm, (List.append_nil _).symm, nofun, nofun⟩
  | cons d rest ih =>
    simp only [addTypes] at ok
    split at ok
    · next u hu =>
      obtain ⟨row, -, hfile, -, -, hmembers⟩ := addType_ok hu
      obtain ⟨first, hfirst, own⟩ := addMembers_rows hmembers
      obtain ⟨types, members, htypes, hrest, files, belongs⟩ := ih ok
      have pushed : u.types.rows = s.types.rows ++ [row] := by
        rw [addMembers_frame hmembers]
        rfl
      refine ⟨row :: types, first ++ members, ?_, ?_, ?_, ?_⟩
      · rw [htypes, pushed]
        exact List.append_assoc _ [row] types
      · rw [hrest, hfirst]
        exact List.append_assoc ..
      · intro x hx
        rcases List.mem_cons.1 hx with rfl | hx
        · exact hfile
        · exact files x hx
      · intro m hm
        rcases List.mem_append.1 hm with hm | hm
        · exact ⟨row, List.mem_cons_self .., (own m hm).symm⟩
        · obtain ⟨x, hx, e⟩ := belongs m hm
          exact ⟨x, List.mem_cons_of_mem _ hx, e⟩
    · cases ok

/-- The types and members of other files stay as they are where types of a file are written. -/
theorem addTypes_of_other {fileId : Id} {position : Nat} {ds : List TypeDraft} (ht : t.Consistent)
    (ok : addTypes s fileId position ds = .ok t) (elsewhere : ∀ f ∈ s.filesOf other, f.id ≠ fileId) :
    t.typesOf other = s.typesOf other ∧ t.membersOf other = s.membersOf other := by
  obtain ⟨newTypes, newMembers, htypes, hmembers, files, belongs⟩ := addTypes_rows ok
  have same : t.filesOf other = s.filesOf other := by
    rw [addTypes_frame ok]
    rfl
  have no : ∀ u ∈ newTypes, ¬ ((s.filesOf other).any (·.id = u.fileId)) = true := by
    intro u hu own
    obtain ⟨f, hf, e⟩ := List.any_eq_true.1 own
    exact elsewhere f hf ((of_decide_eq_true e).trans (files u hu))
  have types : t.typesOf other = s.typesOf other := by
    unfold typesOf
    rw [same, htypes, List.filter_append, List.filter_eq_nil_iff.2 no]
    exact List.append_nil _
  refine ⟨types, ?_⟩
  have none : ∀ m ∈ newMembers, ¬ ((s.typesOf other).any (·.id = m.typeId)) = true := by
    intro m hm own
    obtain ⟨v, hv, e⟩ := List.any_eq_true.1 own
    obtain ⟨u, hu, e'⟩ := belongs m hm
    have old : v ∈ t.types.rows := htypes ▸ List.mem_append_left _ (List.mem_filter.1 hv).1
    have new : u ∈ t.types.rows := htypes ▸ List.mem_append_right _ hu
    have one : v = u := ht.typeIds.eq_of_id old new ((of_decide_eq_true e).trans e'.symm)
    exact no u hu (one ▸ (List.mem_filter.1 hv).2)
  unfold membersOf
  rw [types, hmembers, List.filter_append, List.filter_eq_nil_iff.2 none]
  exact List.append_nil _

theorem replaceFileFacts_rowsOf {draft : FileDraft} {types : List TypeDraft} {row : SourceFile}
    (h : s.Consistent) (ok : s.replaceFileFacts draft types = .ok (row, t))
    (hne : row.repository ≠ slugOf owner name) : t.rowsOf owner name = s.rowsOf owner name := by
  obtain ⟨ht, -⟩ := h.replaceFileFacts ok
  obtain ⟨u, hu, ok'⟩ := replaceFileFacts_ok ok
  obtain ⟨hcu, -⟩ := h.putFile hu
  have elsewhere : ∀ f ∈ u.filesOf (slugOf owner name), f.id ≠ row.id := fun f hf =>
    hcu.id_ne_of_filesOf (putFile_mem hu) hne hf
  have files : u.filesOf (slugOf owner name) = s.filesOf (slugOf owner name) :=
    putFile_filesOf h hu hne
  obtain ⟨types, members⟩ := addTypes_of_other ht ok' elsewhere
  obtain ⟨types', members'⟩ := dropTypes_of_other hcu (fun i => decide (i = row.id))
    fun f hf => decide_eq_false (elsewhere f hf)
  have frame := putFile_frame hu
  have types'' : u.typesOf (slugOf owner name) = s.typesOf (slugOf owner name) := by
    unfold typesOf
    rw [files, frame]
  have members'' : u.membersOf (slugOf owner name) = s.membersOf (slugOf owner name) := by
    unfold membersOf
    rw [types'', frame]
  have same : t.filesOf (slugOf owner name) = u.filesOf (slugOf owner name) := by
    rw [addTypes_frame ok']
    rfl
  unfold rowsOf
  rw [same, files, types, types', types'', members, members', members'']
  rw [(replaceFileFacts_frame ok).2]
  rfl

theorem deleteFilesExcept_rowsOf (h : s.Consistent) (keep : List String) (hne : key ≠ slugOf owner name) :
    (s.deleteFilesExcept key keep).2.rowsOf owner name = s.rowsOf owner name := by
  let doomed (f : SourceFile) : Bool := f.repository = key && !keep.contains f.path
  let gone := (s.files.rows.filter doomed).map (·.id)
  have kept : ∀ f ∈ s.filesOf (slugOf owner name), gone.contains f.id = false := by
    intro f hf
    rw [List.contains_eq_mem, decide_eq_false_iff_not]
    intro hgone
    obtain ⟨g, hg, e⟩ := List.mem_map.1 hgone
    obtain ⟨hg, hdoomed⟩ := List.mem_filter.1 hg
    have own : g.repository = key := of_decide_eq_true (Bool.and_eq_true_iff.1 hdoomed).1
    exact h.id_ne_of_filesOf hg (own ▸ hne) hf e.symm
  obtain ⟨types, members⟩ := dropTypes_of_other h gone.contains kept
  have files : (s.deleteFilesExcept key keep).2.filesOf (slugOf owner name) =
      s.filesOf (slugOf owner name) := by
    refine filter_filter_of_kept fun f _ own => ?_
    have elsewhere : f.repository ≠ key := fun e => hne (e.symm.trans (of_decide_eq_true own))
    simp [elsewhere]
  have types' : (s.deleteFilesExcept key keep).2.typesOf (slugOf owner name) =
      s.typesOf (slugOf owner name) := by
    rw [← types]
    unfold typesOf
    rw [files]
    rfl
  have members' : (s.deleteFilesExcept key keep).2.membersOf (slugOf owner name) =
      s.membersOf (slugOf owner name) := by
    rw [← members]
    unfold membersOf
    rw [types', types]
    rfl
  unfold rowsOf
  rw [files, types', members']
  rfl

/-! ## Namespaces -/

theorem addNamespace_rowsOf {draft : NamespaceDraft} {node : Namespace}
    (ok : s.addNamespace draft = .ok (node, t)) (hne : node.repository ≠ slugOf owner name) :
    t.rowsOf owner name = s.rowsOf owner name := by
  obtain ⟨_, _, -, -, -, -, -, rfl⟩ := addNamespace_ok ok
  have namespaces : ({ s with namespaces := s.namespaces.push node } : Store).namespacesOf
      (slugOf owner name) = s.namespacesOf (slugOf owner name) :=
    filter_push_of_other (decide_eq_false hne)
  unfold rowsOf
  rw [namespaces]
  rfl

/-- Namespaces that are not those of a repository go without any change to its rows: its documents have
no links to them. -/
theorem dropNamespaces_rowsOf (h : s.Consistent) (links : s.OwnLinks) {gone : List Id}
    (elsewhere : ∀ n ∈ s.namespaces.rows, n.id ∈ gone → n.repository ≠ slugOf owner name) :
    (s.dropNamespaces gone).rowsOf owner name = s.rowsOf owner name := by
  have namespaces : (s.dropNamespaces gone).namespacesOf (slugOf owner name) =
      s.namespacesOf (slugOf owner name) := by
    refine filter_filter_of_kept fun n hn own => ?_
    rw [Bool.not_eq_true', List.contains_eq_mem, decide_eq_false_iff_not]
    exact fun hgone => elsewhere n hn hgone (of_decide_eq_true own)
  have snapshots : (s.snapshots.rows.map (unlinked gone)).filter
        (fun d => (s.repositoriesOf owner name).any (·.id = d.repositoryId)) =
      s.snapshots.rows.filter fun d => (s.repositoriesOf owner name).any (·.id = d.repositoryId) := by
    refine filter_map_of_untouched fun d hd => ?_
    cases own : (s.repositoriesOf owner name).any (·.id = d.repositoryId) with
    | false => exact .inr ⟨rfl, own⟩
    | true =>
      obtain ⟨r, hr, e⟩ := List.any_eq_true.1 own
      obtain ⟨hr, keyed⟩ := List.mem_filter.1 hr
      obtain ⟨howner, hname⟩ := Bool.and_eq_true_iff.1 keyed
      have all : d.namespaceIds.filter (!gone.contains ·) = d.namespaceIds := by
        refine List.filter_eq_self.2 fun i hi => ?_
        obtain ⟨r', hr', hid, n, hn, rfl, hown⟩ := links d hd i hi
        rw [h.repositoryIds.eq_of_id hr' hr (hid.trans (of_decide_eq_true e).symm),
          Repository.graphKey, Repository.slug, of_decide_eq_true howner,
          of_decide_eq_true hname] at hown
        rw [Bool.not_eq_true', List.contains_eq_mem, decide_eq_false_iff_not]
        exact fun hgone => elsewhere n hn hgone hown
      refine .inl ?_
      rw [unlinked, all]
  unfold rowsOf
  rw [namespaces]
  exact congrArg (Rows.mk _ _ _ _ _) snapshots

theorem OwnLinks.dropNamespaces (h : s.OwnLinks) (gone : List Id) : (s.dropNamespaces gone).OwnLinks := by
  intro d' hd' i hi
  obtain ⟨d, hd, rfl⟩ := List.mem_map.1 hd'
  obtain ⟨hi, live⟩ := List.mem_filter.1 hi
  obtain ⟨r, hr, hid, n, hn, rfl, hown⟩ := h d hd i hi
  exact ⟨r, hr, hid, n, List.mem_filter.2 ⟨hn, live⟩, rfl, hown⟩

theorem deleteEmptyNamespaces_rowsOf (h : s.Consistent) (links : s.OwnLinks)
    (hne : key ≠ slugOf owner name) :
    (s.deleteEmptyNamespaces key).2.rowsOf owner name = s.rowsOf owner name := by
  have round (u : Store) (hu : u.Consistent ∧ u.OwnLinks ∧ u.rowsOf owner name = s.rowsOf owner name) :
      (u.dropNamespaces ((u.emptyNamespaces key).map (·.id))).Consistent ∧
        (u.dropNamespaces ((u.emptyNamespaces key).map (·.id))).OwnLinks ∧
        (u.dropNamespaces ((u.emptyNamespaces key).map (·.id))).rowsOf owner name =
          s.rowsOf owner name := by
    obtain ⟨hcu, hlu, same⟩ := hu
    refine ⟨(hcu.dropEmptyNamespaces key).1, hlu.dropNamespaces _,
      Eq.trans (dropNamespaces_rowsOf hcu hlu fun n hn hgone => ?_) same⟩
    obtain ⟨e, he, hid⟩ := List.mem_map.1 hgone
    obtain ⟨he, empty⟩ := List.mem_filter.1 he
    rw [← hcu.namespaceIds.eq_of_id he hn hid, (isEmptyNamespace_iff.1 empty).1]
    exact hne
  have all := deleteEmptyNamespaces_keeps key round ⟨h, links, rfl⟩
  exact all.2.2

/-! ## Documents -/

theorem saveSnapshot_rowsOf {draft : SnapshotDraft} {row : Snapshot} {repository : Repository}
    (h : s.Consistent) (hr : repository ∈ s.repositories.rows)
    (hd : draft.repositoryId = some repository.id) (ok : s.saveSnapshot draft = .ok (row, t))
    (hne : (repository.owner, repository.name) ≠ (owner, name)) :
    t.rowsOf owner name = s.rowsOf owner name := by
  obtain ⟨j, commit, hj, -, -, -, hrow, rfl⟩ := saveSnapshot_ok ok
  obtain rfl : j = repository.id := Option.some.inj (hj.symm.trans hd)
  have no {d : Snapshot} (e : d.repositoryId = repository.id) :
      ((s.repositoriesOf owner name).any (·.id = d.repositoryId)) = false := by
    rw [← Bool.not_eq_true, List.any_eq_true]
    rintro ⟨r, hmem, hid⟩
    obtain ⟨hmem, keyed⟩ := List.mem_filter.1 hmem
    rw [h.repositoryIds.eq_of_id hmem hr ((of_decide_eq_true hid).trans e), Bool.and_eq_true,
      decide_eq_true_eq, decide_eq_true_eq] at keyed
    exact hne (Prod.ext keyed.1 keyed.2)
  let accepted (d : Snapshot) : Bool := (s.repositoriesOf owner name).any (·.id = d.repositoryId)
  have demoted : (s.snapshots.rows.map (demotedBy repository.id)).filter accepted =
      s.snapshots.rows.filter accepted := by
    refine filter_map_of_untouched fun d _ => ?_
    rcases demotedBy_cases repository.id d with ⟨e, -⟩ | ⟨-, same⟩
    · exact .inr ⟨no e, no ((demotedBy_same _ d).1.symm.trans e)⟩
    · exact .inl same
  have saved : row.repositoryId = repository.id := by rw [hrow]
  have pushed : (s.snapshots.rows.map (demotedBy repository.id) ++ [row]).filter accepted =
      (s.snapshots.rows.map (demotedBy repository.id)).filter accepted :=
    filter_push_of_other (t := ⟨_, s.snapshots.lastId⟩) (no saved)
  exact congrArg (Rows.mk _ _ _ _ _) (pushed.trans demoted)

theorem OwnLinks.saveSnapshot {draft : SnapshotDraft} {row : Snapshot} {repository : Repository}
    (h : s.OwnLinks) (hr : repository ∈ s.repositories.rows)
    (hd : draft.repositoryId = some repository.id) (ok : s.saveSnapshot draft = .ok (row, t))
    (own : ∀ i ∈ draft.namespaceIds, ∃ n ∈ s.namespaces.rows, n.id = i ∧
      n.repository = repository.graphKey) : t.OwnLinks := by
  obtain ⟨j, commit, hj, -, -, -, hrow, rfl⟩ := saveSnapshot_ok ok
  obtain rfl : j = repository.id := Option.some.inj (hj.symm.trans hd)
  intro d' hd' i hi
  rcases List.mem_append.1 hd' with hd' | hd'
  · obtain ⟨d, hmem, rfl⟩ := List.mem_map.1 hd'
    rw [demotedBy_namespaceIds] at hi
    rw [← (demotedBy_same _ d).1]
    exact h d hmem i hi
  · rw [List.mem_singleton.1 hd', hrow] at hi ⊢
    exact ⟨repository, hr, rfl, own i (mem_ascending.1 hi)⟩

/-! ## Steps of an ingestion -/

theorem FactStep.ownLinks (h : FactStep key s t) (links : s.OwnLinks) : t.OwnLinks := by
  cases h with
  | addNamespace _ _ ok =>
    obtain ⟨_, _, -, -, -, -, -, rfl⟩ := addNamespace_ok ok
    intro d hd i hi
    obtain ⟨r, hr, hid, n, hn, own⟩ := links d hd i hi
    exact ⟨r, hr, hid, n, List.mem_append_left _ hn, own⟩
  | replaceFacts _ _ ok =>
    rw [(replaceFileFacts_frame ok).2]
    exact links
  | deleteFiles => exact links
  | deleteNamespaces => exact deleteEmptyNamespaces_keeps key (fun _ hu => hu.dropNamespaces _) links

/-- A statement for one repository leaves the rows of all others as they are. -/
theorem FactStep.rowsOf (h : FactStep key s t) (hs : s.Consistent) (links : s.OwnLinks)
    (hne : key ≠ slugOf owner name) : t.rowsOf owner name = s.rowsOf owner name := by
  cases h with
  | addNamespace _ _ ok =>
    refine addNamespace_rowsOf ok ?_
    obtain ⟨_, _, hk, -, -, hnode, -, -⟩ := addNamespace_ok ok
    cases hk
    rwa [hnode]
  | replaceFacts _ _ ok =>
    refine replaceFileFacts_rowsOf hs ok ?_
    rwa [(putFile_row (replaceFileFacts_frame ok).1).1]
  | deleteFiles keep => exact deleteFilesExcept_rowsOf hs keep hne
  | deleteNamespaces => exact deleteEmptyNamespaces_rowsOf hs links hne

theorem FactRun.ownLinks (h : FactRun key s t) (links : s.OwnLinks) : t.OwnLinks := by
  induction h with
  | refl => exact links
  | tail _ hstep ih => exact hstep.ownLinks ih

theorem FactRun.rowsOf (h : FactRun key s t) (hs : s.Consistent) (links : s.OwnLinks)
    (hne : key ≠ slugOf owner name) : t.rowsOf owner name = s.rowsOf owner name := by
  induction h with
  | refl => rfl
  | tail hrun hstep ih =>
    exact (hstep.rowsOf (FactRun.consistent hrun hs).1 (ownLinks hrun links) hne).trans ih

end Store

end CodeOutline.Graph
