import CodeOutline.Graph.Name
import CodeOutline.Proofs.Graph.Consistent
import Mathlib.Logic.Relation

/-!
# Steps of an ingestion

The statements that the ingestion of one repository's files consists of: a namespace is made below the
one that its name asks for, the facts of a file are replaced, what is no longer needed goes. `FactRun`
is any number of them. A run keeps the store consistent, touches no repository, and leaves every
document as it is but for its links to namespaces.

`Forest` is what only such steps keep: the namespaces of each repository hang together by their names.
-/

namespace CodeOutline.Graph

/-- The document without its links. -/
def Snapshot.core (d : Snapshot) : Snapshot := { d with namespaceIds := [] }

namespace Store

/-- `parent` is the number of the namespace that the name asks for as its parent, if it asks for
one. -/
def Linked (s : Store) (key name : String) (parent : Option Id) : Prop :=
  match parentName? name with
  | none => parent = none
  | some above => ∃ n ∈ s.namespaces.rows, n.repository = key ∧ n.name = above ∧ parent = some n.id

/-- A statement made while the files of the repository of a graph key are ingested. -/
inductive FactStep (key : String) : Store → Store → Prop where
  | addNamespace {s t : Store} {name : String} {parent : Option Id} {node : Namespace}
      (wellFormed : isWellFormedName name) (linked : s.Linked key name parent)
      (ok : s.addNamespace ⟨key, name, parent⟩ = .ok (node, t)) : FactStep key s t
  | replaceFacts {s t : Store} {node : Namespace} {path hash : String} {types : List TypeFact}
      {row : SourceFile} (mem : node ∈ s.namespaces.rows) (own : node.repository = key)
      (ok : s.replaceFileFacts ⟨key, node.id, path, hash⟩ (types.map TypeFact.draft) = .ok (row, t)) :
      FactStep key s t
  | deleteFiles (s : Store) (keep : List String) : FactStep key s (s.deleteFilesExcept key keep).2
  | deleteNamespaces (s : Store) : FactStep key s (s.deleteEmptyNamespaces key).2

/-- Any number of such statements. -/
abbrev FactRun (key : String) : Store → Store → Prop := Relation.ReflTransGen (FactStep key)

/-- Namespaces have well-formed names and hang below the namespaces that their names ask for, which
are older; files lie in namespaces of their own repositories. -/
structure Forest (s : Store) : Prop where
  wellFormed : ∀ n ∈ s.namespaces.rows, isWellFormedName n.name
  linked : ∀ n ∈ s.namespaces.rows, s.Linked n.repository n.name n.parent
  older : ∀ n ∈ s.namespaces.rows, ∀ p ∈ n.parent, p < n.id
  ownFiles : ∀ f ∈ s.files.rows, ∃ n ∈ s.namespaces.rows,
    n.id = f.namespaceId ∧ n.repository = f.repository

theorem forest_empty : Forest {} := by
  constructor <;> simp

variable {key : String} {s t : Store}

/-! ## What a step keeps -/

theorem FactStep.consistent (h : FactStep key s t) (hs : s.Consistent) :
    t.Consistent ∧ s.Evolves t := by
  cases h with
  | addNamespace _ _ ok => exact hs.addNamespace ok
  | replaceFacts _ _ ok => exact hs.replaceFileFacts ok
  | deleteFiles keep => exact hs.deleteFilesExcept key keep
  | deleteNamespaces => exact hs.deleteEmptyNamespaces key

theorem deleteEmptyNamespaces_frame (s : Store) (key : String) :
    (s.deleteEmptyNamespaces key).2.repositories = s.repositories ∧
      (s.deleteEmptyNamespaces key).2.files = s.files ∧
      (s.deleteEmptyNamespaces key).2.types = s.types ∧
      (s.deleteEmptyNamespaces key).2.members = s.members :=
  deleteEmptyNamespaces_keeps
    (P := fun u => u.repositories = s.repositories ∧ u.files = s.files ∧ u.types = s.types ∧
      u.members = s.members) key (fun _ h => h) ⟨rfl, rfl, rfl, rfl⟩

theorem FactStep.repositories (h : FactStep key s t) : t.repositories = s.repositories := by
  cases h with
  | addNamespace _ _ ok =>
    obtain ⟨_, _, -, -, -, -, -, rfl⟩ := addNamespace_ok ok
    rfl
  | replaceFacts _ _ ok => rw [(replaceFileFacts_frame ok).2]
  | deleteFiles => rfl
  | deleteNamespaces => exact (deleteEmptyNamespaces_frame s key).1

/-- Documents change by their links only. -/
theorem FactStep.snapshots (h : FactStep key s t) :
    t.snapshots.lastId = s.snapshots.lastId ∧
      t.snapshots.rows.map Snapshot.core = s.snapshots.rows.map Snapshot.core := by
  cases h with
  | addNamespace _ _ ok =>
    obtain ⟨_, _, -, -, -, -, -, rfl⟩ := addNamespace_ok ok
    exact ⟨rfl, rfl⟩
  | replaceFacts _ _ ok =>
    rw [(replaceFileFacts_frame ok).2]
    exact ⟨rfl, rfl⟩
  | deleteFiles => exact ⟨rfl, rfl⟩
  | deleteNamespaces =>
    refine deleteEmptyNamespaces_keeps (P := fun u => u.snapshots.lastId = s.snapshots.lastId ∧
      u.snapshots.rows.map Snapshot.core = s.snapshots.rows.map Snapshot.core) key (fun u h => ?_)
      ⟨rfl, rfl⟩
    refine ⟨h.1, Eq.trans ?_ h.2⟩
    simp [dropNamespaces, Snapshot.core, Function.comp_def]

/-! ## The forest -/

theorem Linked.mono {name : String} {parent : Option Id} (h : s.Linked key name parent)
    (hst : ∀ n ∈ s.namespaces.rows, parent = some n.id → n ∈ t.namespaces.rows) :
    t.Linked key name parent := by
  unfold Linked at h ⊢
  split
  · next e => simpa only [e] using h
  · next above e =>
    simp only [e] at h
    obtain ⟨n, hn, hk, hname, hp⟩ := h
    exact ⟨n, hst n hn hp, hk, hname, hp⟩

theorem Linked.mem {name : String} {parent : Option Id} (h : s.Linked key name parent) :
    ∀ p ∈ parent, s.namespaces.Has (·.id) p := by
  intro p hp
  unfold Linked at h
  split at h
  · rw [h] at hp
    cases hp
  · obtain ⟨n, hn, -, -, e⟩ := h
    rw [e] at hp
    cases hp
    exact ⟨n, hn, rfl⟩

theorem Forest.addNamespace {name : String} {parent : Option Id} {node : Namespace} (h : s.Forest)
    (hs : s.Consistent) (wellFormed : isWellFormedName name) (linked : s.Linked key name parent)
    (ok : s.addNamespace ⟨key, name, parent⟩ = .ok (node, t)) : t.Forest := by
  obtain ⟨_, _, hk, hname, -, hnode, -, ht⟩ := addNamespace_ok ok
  cases hk
  cases hname
  rw [ht]
  have linked' : s.Linked node.repository node.name node.parent := by rwa [hnode]
  have kept : ∀ n ∈ s.namespaces.rows, n ∈ (s.namespaces.push node).rows := fun n hn =>
    List.mem_append_left _ hn
  constructor
  · intro n hn
    rcases List.mem_append.1 hn with hn | hn
    · exact h.wellFormed n hn
    · rwa [List.mem_singleton.1 hn, hnode]
  · intro n hn
    rcases List.mem_append.1 hn with hn | hn
    · exact (h.linked n hn).mono fun n hn _ => kept n hn
    · rw [List.mem_singleton.1 hn]
      exact linked'.mono fun n hn _ => kept n hn
  · intro n hn p hp
    rcases List.mem_append.1 hn with hn | hn
    · exact h.older n hn p hp
    · rw [List.mem_singleton.1 hn, hnode] at hp ⊢
      obtain ⟨m, hm, rfl⟩ := linked.mem p hp
      exact hs.namespaceIds.lt_nextId hm
  · intro f hf
    obtain ⟨n, hn, e⟩ := h.ownFiles f hf
    exact ⟨n, kept n hn, e⟩

theorem Forest.replaceFileFacts {node : Namespace} {path hash : String} {types : List TypeDraft}
    {row : SourceFile} (h : s.Forest) (mem : node ∈ s.namespaces.rows) (own : node.repository = key)
    (ok : s.replaceFileFacts ⟨key, node.id, path, hash⟩ types = .ok (row, t)) : t.Forest := by
  obtain ⟨hfile, e⟩ := replaceFileFacts_frame ok
  rw [e]
  refine { h with ownFiles := fun f hf => ?_ }
  obtain ⟨_, _, _, hk, hn, -, -, ⟨old, hold, hrow, ht⟩ | ⟨-, hrow, ht⟩⟩ := putFile_ok hfile
  · cases hk
    cases hn
    have hfiles := congrArg Store.files ht
    dsimp only at hfiles hf
    rw [hfiles] at hf
    obtain ⟨g, hg, rfl⟩ := List.mem_map.1 hf
    split
    · exact ⟨node, mem, by rw [hrow], by rw [hrow, (file?_eq_some hold).2.1, own]⟩
    · exact h.ownFiles g hg
  · cases hk
    cases hn
    have hfiles := congrArg Store.files ht
    dsimp only at hfiles hf
    rw [hfiles] at hf
    rcases List.mem_append.1 hf with hf | hf
    · exact h.ownFiles f hf
    · rw [List.mem_singleton.1 hf, hrow]
      exact ⟨node, mem, rfl, own⟩

/-- A namespace that another one or a file needs is not empty. -/
theorem Forest.dropEmptyNamespaces (h : s.Forest) (repository : String) :
    (s.dropNamespaces ((s.emptyNamespaces repository).map (·.id))).Forest := by
  have kept {n : Namespace} (hn : n ∈ s.namespaces.rows)
      (hneed : (∃ f ∈ s.files.rows, f.namespaceId = n.id) ∨
        ∃ c ∈ s.namespaces.rows, c.parent = some n.id) :
      n ∈ (s.dropNamespaces ((s.emptyNamespaces repository).map (·.id))).namespaces.rows := by
    refine List.mem_filter.2 ⟨hn, ?_⟩
    simp only [Bool.not_eq_true', List.contains_eq_mem, decide_eq_false_iff_not]
    intro hg
    obtain ⟨e, he, hid⟩ := List.mem_map.1 hg
    obtain ⟨-, hfiles, hbelow⟩ := isEmptyNamespace_iff.1 (List.mem_filter.1 he).2
    rcases hneed with ⟨f, hf, ef⟩ | ⟨c, hc, ec⟩
    · exact hfiles f hf (ef.trans hid.symm)
    · exact hbelow c hc (ec.trans (congrArg some hid.symm))
  constructor
  · intro n hn
    exact h.wellFormed n (List.mem_filter.1 hn).1
  · intro n hn
    have hn := (List.mem_filter.1 hn).1
    exact (h.linked n hn).mono fun m hm e => kept hm (.inr ⟨n, hn, e⟩)
  · intro n hn
    exact h.older n (List.mem_filter.1 hn).1
  · intro f hf
    obtain ⟨n, hn, e⟩ := h.ownFiles f hf
    exact ⟨n, kept hn (.inl ⟨f, hf, e.1.symm⟩), e⟩

theorem Forest.putRepository {draft : RepositoryDraft} {row : Repository} (h : s.Forest)
    (ok : s.putRepository draft = .ok (row, t)) : t.Forest := by
  rw [putRepository_frame ok]
  exact ⟨h.wellFormed, h.linked, h.older, h.ownFiles⟩

theorem Forest.saveSnapshot {draft : SnapshotDraft} {row : Snapshot} (h : s.Forest)
    (ok : s.saveSnapshot draft = .ok (row, t)) : t.Forest := by
  obtain ⟨_, _, -, -, -, -, -, rfl⟩ := saveSnapshot_ok ok
  exact ⟨h.wellFormed, h.linked, h.older, h.ownFiles⟩

theorem FactStep.forest (h : FactStep key s t) (hs : s.Consistent) (hf : s.Forest) : t.Forest := by
  cases h with
  | addNamespace wellFormed linked ok => exact hf.addNamespace hs wellFormed linked ok
  | replaceFacts mem own ok => exact hf.replaceFileFacts mem own ok
  | deleteFiles keep =>
    exact { hf with ownFiles := fun f h => hf.ownFiles f (List.mem_filter.1 h).1 }
  | deleteNamespaces =>
    exact deleteEmptyNamespaces_keeps key (fun _ hu => hu.dropEmptyNamespaces key) hf

/-! ## What a run keeps -/

namespace FactRun

theorem consistent (h : FactRun key s t) (hs : s.Consistent) : t.Consistent ∧ s.Evolves t := by
  induction h with
  | refl => exact ⟨hs, .refl s⟩
  | tail _ hstep ih =>
    obtain ⟨hu, ev⟩ := ih
    obtain ⟨ht, ev'⟩ := hstep.consistent hu
    exact ⟨ht, ev.trans ev'⟩

theorem forest (h : FactRun key s t) (hs : s.Consistent) (hf : s.Forest) : t.Forest := by
  induction h with
  | refl => exact hf
  | tail hrun hstep ih => exact hstep.forest (consistent hrun hs).1 ih

theorem repositories (h : FactRun key s t) : t.repositories = s.repositories := by
  induction h with
  | refl => rfl
  | tail _ hstep ih => exact hstep.repositories.trans ih

theorem snapshots (h : FactRun key s t) :
    t.snapshots.lastId = s.snapshots.lastId ∧
      t.snapshots.rows.map Snapshot.core = s.snapshots.rows.map Snapshot.core := by
  induction h with
  | refl => exact ⟨rfl, rfl⟩
  | tail _ hstep ih =>
    exact ⟨hstep.snapshots.1.trans ih.1, hstep.snapshots.2.trans ih.2⟩

end FactRun

end Store

end CodeOutline.Graph
