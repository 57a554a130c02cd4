import CodeOutline.Proofs.Graph.Needed
import CodeOutline.Proofs.Graph.Stored

/-!
# Stores with the same facts

Two stores have the same facts if they differ at most in how often the rows of files have been written,
in the numbers of types and members, and in the numbers that are handed out next. Whatever is computed
from the facts of a repository is then the same: its contents, the names of its namespaces, the
namespaces that nothing needs, and what is stored at a path.
-/

namespace CodeOutline.Graph

/-- The row but for how often it has been written. -/
def SourceFile.core (f : SourceFile) : SourceFile := { f with version := 0 }

namespace Store

/-- The store `t` says about namespaces, files, types and members what `s` says, about files under the
same numbers, and both have the same repositories and documents. -/
structure SameFacts (s t : Store) : Prop where
  repositories : t.repositories = s.repositories
  namespaces : t.namespaces = s.namespaces
  files : t.files.rows.map SourceFile.core = s.files.rows.map SourceFile.core
  facts : ∀ i, t.factsIn i = s.factsIn i
  snapshots : t.snapshots = s.snapshots

variable {s t u : Store} {key path : String}

/-- What is stored at a path does not show how often it has been written. -/
theorem stored?_core (s : Store) (key path : String) :
    s.stored? key path =
      ((s.files.rows.map SourceFile.core).find? fun f => f.repository = key && f.path = path).map
        fun f => ⟨f.contentHash, s.contentOf f⟩ := by
  rw [List.find?_map, Option.map_map]
  rfl

theorem contents_core (s : Store) (key : String) :
    s.contents key =
      ((s.files.rows.map SourceFile.core).filter (·.repository = key)).map s.contentOf := by
  rw [List.filter_map, List.map_map]
  rfl

theorem isEmptyNamespace_core (s : Store) (key : String) (n : Namespace) :
    s.isEmptyNamespace key n =
      (n.repository = key && !(s.files.rows.map SourceFile.core).any (·.namespaceId = n.id) &&
        !s.namespaces.rows.any (·.parent = some n.id)) := by
  rw [List.any_map]
  rfl

namespace SameFacts

theorem refl (s : Store) : s.SameFacts s := ⟨rfl, rfl, rfl, fun _ => rfl, rfl⟩

theorem trans (h : s.SameFacts t) (h' : t.SameFacts u) : s.SameFacts u where
  repositories := h'.repositories.trans h.repositories
  namespaces := h'.namespaces.trans h.namespaces
  files := h'.files.trans h.files
  facts i := (h'.facts i).trans (h.facts i)
  snapshots := h'.snapshots.trans h.snapshots

theorem contentOf (h : s.SameFacts t) (f : SourceFile) : t.contentOf f = s.contentOf f := by
  unfold Store.contentOf nameOf
  rw [h.namespaces, h.facts]

theorem stored? (h : s.SameFacts t) (key path : String) : t.stored? key path = s.stored? key path := by
  rw [stored?_core, stored?_core, h.files]
  simp only [h.contentOf]

theorem contents (h : s.SameFacts t) (key : String) : t.contents key = s.contents key := by
  rw [contents_core, contents_core, h.files]
  simp only [funext h.contentOf]

theorem namesIn (h : s.SameFacts t) (key : String) : t.namesIn key = s.namesIn key := by
  unfold Store.namesIn namespacesOf
  rw [h.namespaces]

theorem emptyNamespaces (h : s.SameFacts t) (key : String) :
    t.emptyNamespaces key = s.emptyNamespaces key := by
  unfold Store.emptyNamespaces
  rw [h.namespaces]
  refine List.filter_congr fun n _ => ?_
  rw [isEmptyNamespace_core, isEmptyNamespace_core, h.files, h.namespaces]

/-- Each file of the one store is a file of the other one, at the same path. -/
theorem exists_file (h : s.SameFacts t) {f : SourceFile} (hf : f ∈ t.files.rows) :
    ∃ g ∈ s.files.rows, g.repository = f.repository ∧ g.path = f.path := by
  have hcore : f.core ∈ s.files.rows.map SourceFile.core := h.files ▸ List.mem_map_of_mem hf
  obtain ⟨g, hg, e⟩ := List.mem_map.1 hcore
  have hkey : g.core.repository = f.core.repository := by rw [e]
  have hpath : g.core.path = f.core.path := by rw [e]
  exact ⟨g, hg, hkey, hpath⟩

end SameFacts

/-- Facts that are stored once more in the place where they are already leave all facts as they are. -/
theorem replaceFileFacts_sameFacts {node : Namespace} {hash : String} {types : List TypeFact}
    {row f : SourceFile} (h : s.Consistent) (hf : f ∈ s.files.rows) (lies : f.namespaceId = node.id)
    (hashed : f.contentHash = hash) (declared : s.factsIn f.id = types)
    (ok : s.replaceFileFacts ⟨f.repository, node.id, f.path, hash⟩ (types.map TypeFact.draft) =
      .ok (row, t)) : s.SameFacts t := by
  have facts := replaceFileFacts_facts h ok
  obtain ⟨put, frame⟩ := replaceFileFacts_frame ok
  obtain ⟨_, _, _, hkey, hid, hpath, -, ⟨old, hold, hrow, files⟩ | ⟨hnone, -, -⟩⟩ := putFile_ok put
  · cases hkey
    cases hid
    cases hpath
    -- The row that is updated is that of the file itself.
    rw [h.file?_eq hf, Option.some_inj] at hold
    subst hold
    have same : row.id = f.id ∧ row.core = f.core := by
      rw [hrow]
      exact ⟨rfl, by simp only [SourceFile.core, lies, hashed]⟩
    have rows := congrArg (fun u => u.files.rows) files
    dsimp only at rows
    constructor
    · rw [frame]
    · rw [frame]
    · rw [rows, List.map_map]
      refine List.map_congr_left fun g hg => ?_
      simp only [Function.comp_apply]
      split
      · next e => rw [same.2, h.fileIds.eq_of_id hg hf e]
      · rfl
    · intro i
      rw [facts, same.1]
      split
      · next e => rw [e, declared]
      · rfl
    · rw [frame]
  · cases hkey
    cases hid
    cases hpath
    rw [h.file?_eq hf] at hnone
    cases hnone

/-- Where all files are to be kept none is removed. -/
theorem deleteFilesExcept_of_kept {keep : List String}
    (kept : ∀ f ∈ s.files.rows, f.repository = key → f.path ∈ keep) :
    (s.deleteFilesExcept key keep).2 = s := by
  let doomed (f : SourceFile) : Bool := f.repository = key && !keep.contains f.path
  have live : ∀ f ∈ s.files.rows, doomed f = false := by
    intro f hf
    by_cases e : f.repository = key
    · have hpath := kept f hf e
      simp [doomed, hpath]
    · simp [doomed, e]
  have none : s.files.rows.filter doomed = [] :=
    List.filter_eq_nil_iff.2 fun f hf => by simp [live f hf]
  have all : s.files.rows.filter (!doomed ·) = s.files.rows :=
    List.filter_eq_self.2 fun f hf => by simp [live f hf]
  have untouched : s.dropTypes (fun _ => false) = s := by simp [dropTypes]
  change ({ s.dropTypes (((s.files.rows.filter doomed).map (·.id)).contains ·.fileId) with
    files := { s.files with rows := s.files.rows.filter (!doomed ·) } } : Store) = s
  rw [none, all]
  exact untouched

/-- Where no namespace is empty none is removed. -/
theorem deleteEmptyNamespaces_of_nil (h : s.emptyNamespaces key = []) :
    (s.deleteEmptyNamespaces key).2 = s := by
  rw [deleteEmptyNamespaces, dif_pos h]

end Store

end CodeOutline.Graph
