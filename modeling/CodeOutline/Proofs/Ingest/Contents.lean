import CodeOutline.Proofs.Data.Distinct
import CodeOutline.Proofs.Graph.Needed
import CodeOutline.Proofs.Ingest.Reading

/-!
# Contents after ingestion

Going through files puts their contents one after the other into those of the repository, and appends
what is missing of the chains of their namespaces. From an empty store with distinct paths that is the
list of contents itself, with all chains in the order in which they first appear; from any store it is
at least known what the contents are in the end, whatever their order.
-/

namespace CodeOutline.Ingest

open CodeOutline.Graph CodeOutline.Remote

/-- What there is to be stored about the files at some paths, for those that can be stored. -/
def parsed (language : Language) (fetch : String → Call String) (paths : List String) :
    List FileContent :=
  paths.filterMap fun path =>
    (storable? language fetch path).map fun (_, r) => ⟨path, r.namespaceName, r.types⟩

/-- The names with what is missing of the chain above a file. -/
def addChain (names : List String) (c : FileContent) : List String :=
  names ++ (dottedPrefixes c.namespaceName).filter (· ∉ names)

/-- The chains above some files, each name where it first appears. -/
def chainsOf (contents : List FileContent) : List String :=
  (contents.flatMap fun c => dottedPrefixes c.namespaceName).eraseDups

variable {language : Language} {key : String} {fetch : String → Call String} {s t : Store}

theorem parsed_paths (language : Language) (fetch : String → Call String) (paths : List String) :
    (parsed language fetch paths).map (·.path) =
      paths.filter fun path => (storable? language fetch path).isSome := by
  induction paths with
  | nil => rfl
  | cons path rest ih =>
    have step : parsed language fetch (path :: rest) =
        ((storable? language fetch path).map fun (_, r) =>
          (⟨path, r.namespaceName, r.types⟩ : FileContent)).toList ++ parsed language fetch rest := by
      unfold parsed
      rw [List.filterMap_cons]
      cases storable? language fetch path <;> rfl
    rw [step, List.map_append, ih, List.filter_cons]
    cases storable? language fetch path <;> rfl

theorem Stores.contents {path text : String} {reading : Reading}
    (h : Stores key path text reading s t) (hs : s.Consistent) (hf : s.Forest) :
    t.contents key = putContent (s.contents key) ⟨path, reading.namespaceName, reading.types⟩ ∧
      t.namesIn key = addChain (s.namesIn key) ⟨path, reading.namespaceName, reading.types⟩ := by
  obtain ⟨u, node, found, made, row, created, ok⟩ := h
  obtain ⟨hu, ev⟩ := created.run.consistent hs
  have files : u.files = s.files := by rw [created.frame]
  have types : u.types = s.types := by rw [created.frame]
  have members : u.members = s.members := by rw [created.frame]
  constructor
  · rw [Store.replaceFileFacts_contents hu created.mem ok, created.named,
      Store.contents_of_frame hs hu ev files types members]
  · have same : t.namesIn key = u.namesIn key := by rw [(Store.replaceFileFacts_frame ok).2]; rfl
    rw [same, created.names_of_forest hf, addChain]

/-- The files are put into the contents one after the other, and their chains are appended. -/
theorem Ingested.contents {paths : List String} (h : Ingested language key fetch paths s t)
    (hs : s.Consistent) (hf : s.Forest) :
    t.contents key = (parsed language fetch paths).foldl putContent (s.contents key) ∧
      t.namesIn key = (parsed language fetch paths).foldl addChain (s.namesIn key) := by
  induction h with
  | nil => exact ⟨rfl, rfl⟩
  | failed unstorable _ ih =>
    have skipped {rest : List String} {path : String} (h : storable? language fetch path = none) :
        parsed language fetch (path :: rest) = parsed language fetch rest := by
      simp [parsed, h]
    rw [skipped unstorable]
    exact ih hs hf
  | stored storable stores _ ih =>
    obtain ⟨hc, hn⟩ := stores.contents hs hf
    obtain ⟨hu, -⟩ := stores.run.consistent hs
    obtain ⟨ihc, ihn⟩ := ih hu (stores.run.forest hs hf)
    have put {rest : List String} {path text : String} {reading : Reading}
        (h : storable? language fetch path = some (text, reading)) :
        parsed language fetch (path :: rest) =
          ⟨path, reading.namespaceName, reading.types⟩ :: parsed language fetch rest := by
      simp [parsed, h]
    rw [put storable, List.foldl_cons, List.foldl_cons, ← hc, ← hn]
    exact ⟨ihc, ihn⟩

theorem nodup_parsed_paths {paths : List String} (h : paths.Nodup) :
    ((parsed language fetch paths).map (·.path)).Nodup := by
  rw [parsed_paths]
  exact h.filter _

/-! ## From an empty store -/

theorem foldl_putContent_of_nodup {contents more : List FileContent}
    (h : ((contents ++ more).map (·.path)).Nodup) :
    more.foldl putContent contents = contents ++ more := by
  induction more generalizing contents with
  | nil => rw [List.foldl_nil, List.append_nil]
  | cons c rest ih =>
    have absent : c.path ∉ contents.map (·.path) := by
      rw [List.map_append, List.nodup_append] at h
      intro hmem
      exact h.2.2 c.path hmem c.path (List.mem_map_of_mem (List.mem_cons_self ..)) rfl
    rw [List.foldl_cons, putContent, if_neg absent, ih (by simpa using h)]
    simp

theorem foldl_addChain_eraseDups (names : List String) (contents : List FileContent) :
    contents.foldl addChain names.eraseDups =
      (names ++ contents.flatMap fun c => dottedPrefixes c.namespaceName).eraseDups := by
  induction contents generalizing names with
  | nil => simp
  | cons c rest ih =>
    have added : addChain names.eraseDups c = (names ++ dottedPrefixes c.namespaceName).eraseDups := by
      rw [eraseDups_append_of_nodup names (nodup_dottedPrefixes _), addChain]
      exact congrArg _ (List.filter_congr fun name _ => by simp)
    rw [List.foldl_cons, added, ih]
    simp

/-- From an empty store: the contents as they are, and all chains. -/
theorem Ingested.contents_of_empty {paths : List String}
    (h : Ingested language key fetch paths {} t) (hpaths : paths.Nodup) :
    t.contents key = parsed language fetch paths ∧
      t.namesIn key = chainsOf (parsed language fetch paths) := by
  obtain ⟨hc, hn⟩ := h.contents Store.consistent_empty Store.forest_empty
  constructor
  · rw [hc]
    exact foldl_putContent_of_nodup (nodup_parsed_paths hpaths)
  · rw [hn]
    exact foldl_addChain_eraseDups [] _

/-! ## From any store -/

theorem mem_putContent {contents : List FileContent} {c x : FileContent} :
    x ∈ putContent contents c ↔ x = c ∨ x ∈ contents ∧ x.path ≠ c.path := by
  unfold putContent
  split
  · next hpath =>
    obtain ⟨old, hold, hpath⟩ := List.mem_map.1 hpath
    rw [List.mem_map]
    constructor
    · rintro ⟨y, hy, rfl⟩
      split
      · exact .inl rfl
      · next hne => exact .inr ⟨hy, hne⟩
    · rintro (rfl | ⟨hx, hne⟩)
      · exact ⟨old, hold, if_pos hpath⟩
      · exact ⟨x, hx, if_neg hne⟩
  · next hpath =>
    rw [List.mem_append, List.mem_singleton]
    constructor
    · rintro (hx | rfl)
      · exact .inr ⟨hx, fun e => hpath (e ▸ List.mem_map_of_mem hx)⟩
      · exact .inl rfl
    · rintro (rfl | ⟨hx, -⟩)
      · exact .inr rfl
      · exact .inl hx

/-- Where a path has one content, the contents in the end are those that were put, and of the others
those whose paths were not put. -/
theorem mem_foldl_putContent {contents more : List FileContent} {x : FileContent}
    (h : ∀ c ∈ more, ∀ d ∈ more, c.path = d.path → c = d) :
    x ∈ more.foldl putContent contents ↔
      x ∈ more ∨ x ∈ contents ∧ x.path ∉ more.map (·.path) := by
  induction more generalizing contents with
  | nil => simp
  | cons c rest ih =>
    have one : ∀ a ∈ rest, ∀ b ∈ rest, a.path = b.path → a = b := fun a ha b hb =>
      h a (List.mem_cons_of_mem _ ha) b (List.mem_cons_of_mem _ hb)
    rw [List.foldl_cons, ih one, mem_putContent, List.map_cons, List.mem_cons, List.mem_cons,
      not_or]
    constructor
    · rintro (hx | ⟨rfl | ⟨hx, hne⟩, hrest⟩)
      · exact .inl (.inr hx)
      · exact .inl (.inl rfl)
      · exact .inr ⟨hx, hne, hrest⟩
    · rintro ((rfl | hx) | ⟨hx, hne, hrest⟩)
      · by_cases hrest : x.path ∈ rest.map (·.path)
        · -- The path is put once more, with the same content.
          obtain ⟨d, hd, hpath⟩ := List.mem_map.1 hrest
          have := h x (List.mem_cons_self ..) d (List.mem_cons_of_mem _ hd) hpath.symm
          exact .inl (this ▸ hd)
        · exact .inr ⟨.inl rfl, hrest⟩
      · exact .inl hx
      · exact .inr ⟨.inr ⟨hx, hne⟩, hrest⟩

end CodeOutline.Ingest
