import CodeOutline.Proofs.Graph.Content

/-!
# What is stored at a path

The content of a store seen path by path: what is stored about the file at one path of one repository,
with the hash of the text that it was read from. Each statement of the store changes entries in one
plain way. Replacing the facts of a file sets the entry of its path, removing files clears entries, and
the statements for repositories, namespaces and documents leave all entries as they are.
-/

namespace CodeOutline.Graph

/-- What is stored about a file, and the hash of its text. -/
structure StoredFile where
  hash : String
  content : FileContent

namespace Store

/-- What is stored at a path of a repository. -/
def stored? (s : Store) (key path : String) : Option StoredFile :=
  (s.file? key path).map fun f => ⟨f.contentHash, s.contentOf f⟩

variable {s t : Store} {key path : String}

/-- A file is found by its repository and path. -/
theorem Consistent.file?_eq (h : s.Consistent) {f : SourceFile} (hf : f ∈ s.files.rows) :
    s.file? f.repository f.path = some f := by
  cases hfind : s.file? f.repository f.path with
  | none => exact absurd (List.mem_map.2 ⟨f, hf, rfl⟩) (file?_eq_none.1 hfind)
  | some g =>
    obtain ⟨hg, hkey, hpath⟩ := file?_eq_some hfind
    rw [List.inj_on_of_nodup_map h.fileKeys hg hf (Prod.ext hkey hpath)]

theorem Consistent.stored?_eq (h : s.Consistent) {f : SourceFile} (hf : f ∈ s.files.rows) :
    s.stored? f.repository f.path = some ⟨f.contentHash, s.contentOf f⟩ := by
  rw [stored?, h.file?_eq hf, Option.map_some]

theorem stored?_eq_some {e : StoredFile} (h : s.stored? key path = some e) :
    ∃ f ∈ s.files.rows, f.repository = key ∧ f.path = path ∧ e = ⟨f.contentHash, s.contentOf f⟩ := by
  obtain ⟨f, hf, rfl⟩ := Option.map_eq_some_iff.1 h
  obtain ⟨hmem, hkey, hpath⟩ := file?_eq_some hf
  exact ⟨f, hmem, hkey, hpath, rfl⟩

theorem stored?_eq_none :
    s.stored? key path = none ↔ ∀ f ∈ s.files.rows, f.repository = key → f.path ≠ path := by
  rw [stored?, Option.map_eq_none_iff, file?_eq_none]
  simp

theorem isSome_stored?_iff :
    (s.stored? key path).isSome ↔ (key, path) ∈ s.files.rows.map fun f => (f.repository, f.path) := by
  rw [Option.isSome_iff_ne_none, ne_eq, stored?_eq_none]
  simp

/-- The contents of a repository are those of its entries. -/
theorem Consistent.mem_contents_iff (h : s.Consistent) {c : FileContent} :
    c ∈ s.contents key ↔ ∃ hash, s.stored? key c.path = some ⟨hash, c⟩ := by
  constructor
  · intro hc
    obtain ⟨f, hf, rfl⟩ := List.mem_map.1 hc
    obtain ⟨hmem, hkey⟩ := List.mem_filter.1 hf
    have entry := h.stored?_eq hmem
    rw [of_decide_eq_true hkey] at entry
    exact ⟨f.contentHash, entry⟩
  · rintro ⟨hash, he⟩
    obtain ⟨f, hf, rfl, -, e⟩ := stored?_eq_some he
    cases e
    exact List.mem_map_of_mem (List.mem_filter.2 ⟨hf, decide_eq_true rfl⟩)

/-- Two stores that agree about the row of a path and its content have the same entry there. -/
theorem stored?_congr (ht : t.Consistent)
    (rows : ∀ f, f.repository = key → f.path = path → (f ∈ t.files.rows ↔ f ∈ s.files.rows))
    (same : ∀ f ∈ s.files.rows, f.repository = key → f.path = path → t.contentOf f = s.contentOf f) :
    t.stored? key path = s.stored? key path := by
  cases he : s.stored? key path with
  | none =>
    have none := stored?_eq_none.1 he
    exact stored?_eq_none.2 fun f hf hkey hpath => none f ((rows f hkey hpath).1 hf) hkey hpath
  | some e =>
    obtain ⟨f, hf, rfl, rfl, rfl⟩ := stored?_eq_some he
    rw [ht.stored?_eq ((rows f rfl rfl).2 hf), same f hf rfl rfl]

/-! ## Statements -/

/-- Entries do not change with anything but files, types and members. -/
theorem stored?_of_frame (hs : s.Consistent) (ht : t.Consistent) (ev : s.Evolves t)
    (files : t.files = s.files) (types : t.types = s.types) (members : t.members = s.members) :
    t.stored? key path = s.stored? key path := by
  refine stored?_congr ht (fun f _ _ => by rw [files]) fun f hf _ _ => ?_
  exact contentOf_of_frame hs ht ev files types members hf

theorem putRepository_stored {draft : RepositoryDraft} {row : Repository} (h : s.Consistent)
    (ok : s.putRepository draft = .ok (row, t)) : t.stored? key path = s.stored? key path := by
  obtain ⟨ht, ev⟩ := h.putRepository ok
  have frame := putRepository_frame ok
  exact stored?_of_frame h ht ev (by rw [frame]) (by rw [frame]) (by rw [frame])

theorem saveSnapshot_stored {draft : SnapshotDraft} {row : Snapshot} (h : s.Consistent)
    (ok : s.saveSnapshot draft = .ok (row, t)) : t.stored? key path = s.stored? key path := by
  obtain ⟨ht, ev⟩ := h.saveSnapshot ok
  obtain ⟨_, _, -, -, -, -, -, rfl⟩ := saveSnapshot_ok ok
  exact stored?_of_frame h ht ev rfl rfl rfl

theorem deleteEmptyNamespaces_stored (h : s.Consistent) (repository : String) :
    (s.deleteEmptyNamespaces repository).2.stored? key path = s.stored? key path := by
  obtain ⟨ht, ev⟩ := h.deleteEmptyNamespaces repository
  obtain ⟨-, files, types, members⟩ := deleteEmptyNamespaces_frame s repository
  exact stored?_of_frame h ht ev files types members

/-- The rows of other paths stay when the row of a file is put. -/
theorem putFile_other {namespaceId : Id} {hash other place : String} {row f : SourceFile}
    (h : s.Consistent) (ok : s.putFile ⟨key, namespaceId, path, hash⟩ = .ok (row, t))
    (hother : ¬ (other = key ∧ place = path)) (hkey : f.repository = other) (hpath : f.path = place) :
    (f ∈ t.files.rows ↔ f ∈ s.files.rows) ∧ (f ∈ s.files.rows → f.id ≠ row.id) := by
  obtain ⟨_, _, _, hk, -, hp, -, ⟨old, hold, hrow, rfl⟩ | ⟨-, hrow, rfl⟩⟩ := putFile_ok ok
  · cases hk
    cases hp
    obtain ⟨hmem, rfl, rfl⟩ := file?_eq_some hold
    have key : row.repository = old.repository ∧ row.path = old.path ∧ row.id = old.id := by
      rw [hrow]
      exact ⟨rfl, rfl, rfl⟩
    have distinct : f ∈ s.files.rows → f.id ≠ old.id := by
      intro hf e
      obtain rfl := h.fileIds.eq_of_id hf hmem e
      exact hother ⟨hkey.symm, hpath.symm⟩
    refine ⟨⟨fun hf => ?_, fun hf => ?_⟩, fun hf => by rw [key.2.2]; exact distinct hf⟩
    · obtain ⟨g, hg, e⟩ := List.mem_map.1 hf
      split at e
      · rw [← e] at hkey hpath
        exact absurd ⟨hkey.symm.trans key.1, hpath.symm.trans key.2.1⟩ hother
      · exact e ▸ hg
    · exact List.mem_map.2 ⟨f, hf, if_neg (distinct hf)⟩
  · cases hk
    cases hp
    refine ⟨⟨fun hf => ?_, fun hf => List.mem_append_left _ hf⟩, fun hf => ?_⟩
    · rcases List.mem_append.1 hf with hf | hf
      · exact hf
      · rw [List.mem_singleton.1 hf, hrow] at hkey hpath
        exact absurd ⟨hkey.symm, hpath.symm⟩ hother
    · rw [hrow]
      exact (h.fileIds.lt_nextId hf).ne

theorem putFile_row {namespaceId : Id} {hash : String} {row : SourceFile}
    (ok : s.putFile ⟨key, namespaceId, path, hash⟩ = .ok (row, t)) :
    row.repository = key ∧ row.path = path ∧ row.namespaceId = namespaceId ∧
      row.contentHash = hash := by
  obtain ⟨_, _, _, hk, hi, hp, -, ⟨old, hold, hrow, -⟩ | ⟨-, hrow, -⟩⟩ := putFile_ok ok
  · cases hk
    cases hi
    cases hp
    obtain ⟨-, hkey, hpath⟩ := file?_eq_some hold
    rw [hrow]
    exact ⟨hkey, hpath, rfl, rfl⟩
  · cases hk
    cases hi
    cases hp
    rw [hrow]
    exact ⟨rfl, rfl, rfl, rfl⟩

/-- Replacing the facts of a file sets the entry of its path. -/
theorem replaceFileFacts_stored {node : Namespace} {hash : String} {types : List TypeFact}
    {row : SourceFile} (h : s.Consistent) (hn : node ∈ s.namespaces.rows)
    (ok : s.replaceFileFacts ⟨key, node.id, path, hash⟩ (types.map TypeFact.draft) = .ok (row, t))
    (other place : String) :
    t.stored? other place =
      if other = key ∧ place = path then some ⟨hash, path, node.name, types⟩
      else s.stored? other place := by
  obtain ⟨ht, -⟩ := h.replaceFileFacts ok
  obtain ⟨new, same⟩ := replaceFileFacts_contentOf h hn ok
  obtain ⟨put, -⟩ := replaceFileFacts_frame ok
  split
  · next e =>
    obtain ⟨rfl, rfl⟩ := e
    obtain ⟨hkey, hpath, -, hhash⟩ := putFile_row put
    have mem := putFile_mem put
    have entry := ht.stored?_eq (f := row) mem
    rwa [hkey, hpath, hhash, new] at entry
  · next hother =>
    refine stored?_congr ht (fun f hkey hpath => ?_) fun f hf hkey hpath => ?_
    · exact (putFile_other h put hother hkey hpath).1
    · exact same f ((putFile_other h put hother hkey hpath).2 hf)

/-- Removing files clears the entries of their paths. -/
theorem deleteFilesExcept_stored (h : s.Consistent) (keep : List String) (other place : String) :
    (s.deleteFilesExcept key keep).2.stored? other place =
      if other = key ∧ place ∉ keep then none else s.stored? other place := by
  obtain ⟨ht, -⟩ := h.deleteFilesExcept key keep
  have mem (f : SourceFile) : f ∈ (s.deleteFilesExcept key keep).2.files.rows ↔
      f ∈ s.files.rows ∧ (f.repository = key → f.path ∈ keep) := by
    simp only [deleteFilesExcept, dropTypes, List.mem_filter, Bool.not_eq_true', Bool.and_eq_false_iff,
      decide_eq_false_iff_not, Bool.not_eq_false', List.contains_iff_mem]
    exact and_congr_right fun _ => imp_iff_not_or.symm
  split
  · next e =>
    refine stored?_eq_none.2 fun f hf hkey hpath => ?_
    have kept := ((mem f).1 hf).2 (hkey.trans e.1)
    exact e.2 (hpath ▸ kept)
  · next hother =>
    have kept (f : SourceFile) (hkey : f.repository = other) (hpath : f.path = place) :
        f.repository = key → f.path ∈ keep := by
      intro e
      by_contra hno
      exact hother ⟨hkey.symm.trans e, hpath ▸ hno⟩
    refine stored?_congr ht (fun f hkey hpath => ?_) fun f hf hkey hpath => ?_
    · rw [mem, and_iff_left (kept f hkey hpath)]
    · exact deleteFilesExcept_contentOf h hf (kept f hkey hpath)

end Store

end CodeOutline.Graph
