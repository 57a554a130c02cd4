import CodeOutline.Proofs.Graph.Needed
import CodeOutline.Proofs.Graph.Rows

/-!
# A repository alone in a store

A store that has the rows of one repository and no others says about that repository what the store
that they are from says: the same names of namespaces, the same contents, the same current document.
`alone` is such a store, and it is as consistent as the one it is from, since rows refer to rows of
their own repository only.
-/

namespace CodeOutline.Graph.Store

/-- The store with the rows of one repository only. Numbers are handed out as before. -/
def alone (s : Store) (owner name : String) : Store where
  repositories := ⟨(s.rowsOf owner name).repositories, s.repositories.lastId⟩
  namespaces := ⟨(s.rowsOf owner name).namespaces, s.namespaces.lastId⟩
  files := ⟨(s.rowsOf owner name).files, s.files.lastId⟩
  types := ⟨(s.rowsOf owner name).types, s.types.lastId⟩
  members := ⟨(s.rowsOf owner name).members, s.members.lastId⟩
  snapshots := ⟨(s.rowsOf owner name).snapshots, s.snapshots.lastId⟩

variable {s t : Store} {owner name key : String}

theorem rows_alone (s : Store) (owner name : String) : (s.alone owner name).rows = s.rowsOf owner name :=
  rfl

/-! ## What is said about the repository -/

theorem mem_repositoriesOf {r : Repository} :
    r ∈ s.repositoriesOf owner name ↔ r ∈ s.repositories.rows ∧ r.owner = owner ∧ r.name = name := by
  simp [repositoriesOf]

theorem mem_filesOf {f : SourceFile} :
    f ∈ s.filesOf key ↔ f ∈ s.files.rows ∧ f.repository = key := by
  simp [filesOf]

theorem mem_typesOf {u : TypeRow} :
    u ∈ s.typesOf key ↔ u ∈ s.types.rows ∧ ∃ f ∈ s.filesOf key, f.id = u.fileId := by
  simp [typesOf]

theorem mem_membersOf {m : MemberRow} :
    m ∈ s.membersOf key ↔ m ∈ s.members.rows ∧ ∃ u ∈ s.typesOf key, u.id = m.typeId := by
  simp [membersOf]

/-- The types of a file of the repository are all among its rows. -/
theorem typesIn_of_rows (types : t.types.rows = s.typesOf key) {f : SourceFile}
    (hf : f ∈ s.filesOf key) : t.typesIn f.id = s.typesIn f.id := by
  unfold typesIn
  rw [types]
  refine filter_filter_of_kept fun u _ own => ?_
  rw [List.any_eq_true]
  exact ⟨f, hf, decide_eq_true (of_decide_eq_true own).symm⟩

/-- The members of a type of the repository are all among its rows. -/
theorem membersIn_of_rows (members : t.members.rows = s.membersOf key) {u : TypeRow}
    (hu : u ∈ s.typesOf key) : t.membersIn u.id = s.membersIn u.id := by
  unfold membersIn
  rw [members]
  refine filter_filter_of_kept fun m _ own => ?_
  rw [List.any_eq_true]
  exact ⟨u, hu, decide_eq_true (of_decide_eq_true own).symm⟩

section Same

variable (rows : t.rows = s.rowsOf owner name)
include rows

theorem namesIn_of_rows : t.namesIn (slugOf owner name) = s.namesIn (slugOf owner name) := by
  have namespaces : t.namespaces.rows = s.namespacesOf (slugOf owner name) :=
    congrArg Rows.namespaces rows
  unfold namesIn namespacesOf
  rw [namespaces]
  exact congrArg (List.map _) (filter_filter_of_kept fun _ _ own => own)

theorem contents_of_rows (hs : s.Consistent) (hf : s.Forest) (ht : t.Consistent) :
    t.contents (slugOf owner name) = s.contents (slugOf owner name) := by
  have namespaces : t.namespaces.rows = s.namespacesOf (slugOf owner name) :=
    congrArg Rows.namespaces rows
  have files : t.files.rows = s.filesOf (slugOf owner name) := congrArg Rows.files rows
  have types : t.types.rows = s.typesOf (slugOf owner name) := congrArg Rows.types rows
  have members : t.members.rows = s.membersOf (slugOf owner name) := congrArg Rows.members rows
  have all : t.files.rows.filter (·.repository = slugOf owner name) = s.filesOf (slugOf owner name) := by
    rw [files]
    exact filter_filter_of_kept fun _ _ own => own
  unfold contents
  rw [all]
  refine List.map_congr_left fun f hmem => ?_
  obtain ⟨hfile, hkey⟩ := mem_filesOf.1 hmem
  obtain ⟨n, hn, hid, hown⟩ := hf.ownFiles f hfile
  have there : n ∈ t.namespaces.rows := by
    rw [namespaces]
    exact List.mem_filter.2 ⟨hn, decide_eq_true (hown.trans hkey)⟩
  have facts : t.factsIn f.id = s.factsIn f.id := by
    unfold factsIn
    rw [typesIn_of_rows types hmem]
    refine List.map_congr_left fun u hu => ?_
    obtain ⟨hu, hfu⟩ := List.mem_filter.1 hu
    have own : u ∈ s.typesOf (slugOf owner name) :=
      mem_typesOf.2 ⟨hu, f, hmem, (of_decide_eq_true hfu).symm⟩
    rw [membersIn_of_rows members own]
  unfold contentOf
  rw [facts, ← hid, hs.nameOf_eq hn, ht.nameOf_eq there]

theorem currentOf_of_rows : t.currentOf owner name = s.currentOf owner name := by
  have repositories : t.repositories.rows = s.repositoriesOf owner name :=
    congrArg Rows.repositories rows
  have snapshots : t.snapshots.rows = _ := congrArg Rows.snapshots rows
  have same : t.repository? owner name = s.repository? owner name := by
    unfold repository?
    rw [repositories, ← List.head?_filter, ← List.head?_filter]
    exact congrArg List.head? (filter_filter_of_kept fun _ _ own => own)
  unfold currentOf
  rw [same]
  cases hfind : s.repository? owner name with
  | none => rfl
  | some r =>
    obtain ⟨hr, howner, hname⟩ := repository?_eq_some hfind
    rw [Option.bind_some, Option.bind_some]
    unfold currentSnapshot?
    rw [snapshots, ← List.head?_filter, ← List.head?_filter]
    refine congrArg List.head? (filter_filter_of_kept fun d _ own => ?_)
    have hid : d.repositoryId = r.id := of_decide_eq_true (Bool.and_eq_true_iff.1 own).1
    rw [List.any_eq_true]
    exact ⟨r, mem_repositoriesOf.2 ⟨hr, howner, hname⟩, decide_eq_true hid.symm⟩

/-- The namespaces of a repository hang together among themselves. -/
theorem Forest.of_rows (hf : s.Forest) : t.Forest := by
  have namespaces : t.namespaces.rows = s.namespacesOf (slugOf owner name) :=
    congrArg Rows.namespaces rows
  have files : t.files.rows = s.filesOf (slugOf owner name) := congrArg Rows.files rows
  have mem {n : Namespace} : n ∈ t.namespaces.rows ↔
      n ∈ s.namespaces.rows ∧ n.repository = slugOf owner name := by
    rw [namespaces]
    simp [namespacesOf]
  constructor
  · intro n hn
    exact hf.wellFormed n (mem.1 hn).1
  · intro n hn
    obtain ⟨hn, hkey⟩ := mem.1 hn
    have linked := hf.linked n hn
    unfold Linked at linked ⊢
    split
    · next e => simpa only [e] using linked
    · next above e =>
      simp only [e] at linked
      obtain ⟨m, hm, hown, hname, hparent⟩ := linked
      exact ⟨m, mem.2 ⟨hm, hown.trans hkey⟩, hown, hname, hparent⟩
  · intro n hn
    exact hf.older n (mem.1 hn).1
  · intro f hfile
    rw [files] at hfile
    obtain ⟨hfile, hkey⟩ := mem_filesOf.1 hfile
    obtain ⟨n, hn, hid, hown⟩ := hf.ownFiles f hfile
    exact ⟨n, mem.2 ⟨hn, hown.trans hkey⟩, hid, hown⟩

end Same

/-! ## Consistency -/

/-- A file that is left has its types, and where there is no file there are none. -/
theorem typesIn_alone (s : Store) (owner name : String) (i : Id) :
    (s.alone owner name).typesIn i = s.typesIn i ∨ (s.alone owner name).typesIn i = [] := by
  by_cases own : ∃ f ∈ s.filesOf (slugOf owner name), f.id = i
  · obtain ⟨f, hfile, rfl⟩ := own
    exact .inl (typesIn_of_rows rfl hfile)
  · refine .inr (List.filter_eq_nil_iff.2 fun u hu e => own ?_)
    obtain ⟨-, f, hfile, hid⟩ := mem_typesOf.1 hu
    exact ⟨f, hfile, hid.trans (of_decide_eq_true e)⟩

theorem membersIn_alone (s : Store) (owner name : String) (i : Id) :
    (s.alone owner name).membersIn i = s.membersIn i ∨ (s.alone owner name).membersIn i = [] := by
  by_cases own : ∃ u ∈ s.typesOf (slugOf owner name), u.id = i
  · obtain ⟨u, hu, rfl⟩ := own
    exact .inl (membersIn_of_rows rfl hu)
  · refine .inr (List.filter_eq_nil_iff.2 fun m hm e => own ?_)
    obtain ⟨-, u, hu, hid⟩ := mem_membersOf.1 hm
    exact ⟨u, hu, hid.trans (of_decide_eq_true e)⟩

/-- Rows refer to rows of their own repository only. -/
theorem Consistent.alone (h : s.Consistent) (hf : s.Forest) (links : s.OwnLinks) (owner name : String) :
    (s.alone owner name).Consistent := by
  have namespaces {n : Namespace} : n ∈ (s.alone owner name).namespaces.rows ↔
      n ∈ s.namespaces.rows ∧ n.repository = slugOf owner name := by
    simp [Store.alone, rowsOf, namespacesOf]
  have snapshots {d : Snapshot} : d ∈ (s.alone owner name).snapshots.rows ↔
      d ∈ s.snapshots.rows ∧ ∃ r ∈ s.repositoriesOf owner name, r.id = d.repositoryId := by
    simp [Store.alone, rowsOf]
  constructor
  · exact h.repositoryIds.filter _
  · exact h.namespaceIds.filter _
  · exact h.fileIds.filter _
  · exact h.typeIds.filter _
  · exact h.memberIds.filter _
  · exact h.snapshotIds.filter _
  · exact Table.nodup_key_filter h.repositoryKeys _
  · exact Table.nodup_key_filter h.namespaceKeys _
  · exact Table.nodup_key_filter h.fileKeys _
  · intro n hn p hp
    obtain ⟨hn, hkey⟩ := namespaces.1 hn
    have linked := hf.linked n hn
    unfold Linked at linked
    split at linked
    · rw [linked] at hp
      cases hp
    · obtain ⟨m, hm, hown, -, hparent⟩ := linked
      rw [hparent] at hp
      cases hp
      exact ⟨m, namespaces.2 ⟨hm, hown.trans hkey⟩, rfl⟩
  · intro f hfile
    obtain ⟨hfile, hkey⟩ := mem_filesOf.1 hfile
    obtain ⟨n, hn, hid, hown⟩ := hf.ownFiles f hfile
    exact ⟨n, namespaces.2 ⟨hn, hown.trans hkey⟩, hid⟩
  · intro u hu
    exact (mem_typesOf.1 hu).2
  · intro m hm
    exact (mem_membersOf.1 hm).2
  · intro d hd
    exact (snapshots.1 hd).2
  · intro d hd i hi
    obtain ⟨hd, r, hr, hid⟩ := snapshots.1 hd
    obtain ⟨r', hr', hid', n, hn, hni, hown⟩ := links d hd i hi
    obtain ⟨hr, howner, hname⟩ := mem_repositoriesOf.1 hr
    obtain rfl := h.repositoryIds.eq_of_id hr' hr (hid'.trans hid.symm)
    refine ⟨n, namespaces.2 ⟨hn, hown.trans ?_⟩, hni⟩
    rw [Repository.graphKey, Repository.slug, howner, hname]
  · intro i
    rcases typesIn_alone s owner name i with same | none
    · rw [same]
      exact h.typePositions i
    · rw [none]
      rfl
  · intro i
    rcases membersIn_alone s owner name i with same | none
    · rw [same]
      exact h.memberPositions i
    · rw [none]
      rfl
  · intro d hd
    obtain ⟨hd, own⟩ := snapshots.1 hd
    obtain ⟨c, hc, hr, current, greatest⟩ := h.currentSnapshots d hd
    refine ⟨c, snapshots.2 ⟨hc, hr ▸ own⟩, hr, current, fun e he => ?_⟩
    exact greatest e (snapshots.1 he).1

end CodeOutline.Graph.Store
