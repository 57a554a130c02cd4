import CodeOutline.Proofs.Graph.SameFacts
import CodeOutline.Proofs.Ingest.Reading

/-!
# What ingestion leaves at each path

A batch sets what is stored at the paths of the files that can be stored, to what has just been fetched
and read, and it leaves all other paths as they are: those of files that fail as well as those of files
that it does not know. A batch that finds everything in its place already changes no facts
(`Ingested.sameFacts`).
-/

namespace CodeOutline.Ingest

open CodeOutline.Graph CodeOutline.Remote

/-- What is to be stored at a path: what is fetched for it, if that can be stored. -/
def fetched? (language : Language) (fetch : String → Call String) (path : String) :
    Option StoredFile :=
  (storable? language fetch path).map fun (text, r) =>
    ⟨Text.Sha256.hex text, path, r.namespaceName, r.types⟩

variable {language : Language} {key : String} {fetch : String → Call String} {s t : Store}

theorem fetched?_of_storable {path text : String} {reading : Reading}
    (h : storable? language fetch path = some (text, reading)) :
    fetched? language fetch path =
      some ⟨Text.Sha256.hex text, path, reading.namespaceName, reading.types⟩ := by
  rw [fetched?, h, Option.map_some]

theorem fetched?_of_unstorable {path : String} (h : storable? language fetch path = none) :
    fetched? language fetch path = none := by
  rw [fetched?, h, Option.map_none]

/-! ## One file after the other -/

theorem Stores.stored?_eq {path text : String} {reading : Reading}
    (h : Stores key path text reading s t) (hs : s.Consistent) (other place : String) :
    t.stored? other place =
      if other = key ∧ place = path then
        some ⟨Text.Sha256.hex text, path, reading.namespaceName, reading.types⟩
      else s.stored? other place := by
  obtain ⟨u, node, found, made, row, created, ok⟩ := h
  obtain ⟨hu, ev⟩ := created.run.consistent hs
  have before : u.stored? other place = s.stored? other place :=
    Store.stored?_of_frame hs hu ev (by rw [created.frame]) (by rw [created.frame])
      (by rw [created.frame])
  rw [Store.replaceFileFacts_stored hu created.mem ok, before, created.named]

/-- Each path of a batch has what is fetched for it, where that can be stored. -/
theorem Ingested.stored?_eq {paths : List String} (h : Ingested language key fetch paths s t)
    (hs : s.Consistent) (other place : String) :
    t.stored? other place =
      if other = key ∧ place ∈ paths then
        (fetched? language fetch place).or (s.stored? other place)
      else s.stored? other place := by
  induction h with
  | nil => simp
  | @failed path rest s t unstorable others ih =>
    rw [ih hs]
    by_cases here : place = path
    · rw [here, fetched?_of_unstorable unstorable, Option.none_or, ite_self, ite_self]
    · simp only [List.mem_cons, here, false_or]
  | @stored path rest s u t text reading storable stores others ih =>
    obtain ⟨hu, -⟩ := stores.run.consistent hs
    rw [ih hu, stores.stored?_eq hs]
    by_cases own : other = key
    · by_cases here : place = path
      · rw [here, fetched?_of_storable storable]
        simp [own]
      · simp only [List.mem_cons, here, false_or, and_false, if_false]
    · simp only [own, false_and, if_false]

/-! ## A batch that has been through already -/

/-- What is at its place already is stored once more without any change to the facts: its namespace is
there with the chain above it, and the row of the file keeps its number. -/
theorem Stores.sameFacts {path text : String} {reading : Reading}
    (h : Stores key path text reading s t) (hs : s.Consistent) (hf : s.Forest)
    (settled : s.stored? key path =
      some ⟨Text.Sha256.hex text, path, reading.namespaceName, reading.types⟩) : s.SameFacts t := by
  obtain ⟨u, node, found, made, row, created, ok⟩ := h
  obtain ⟨f, hmem, rfl, rfl, e⟩ := Store.stored?_eq_some settled
  obtain ⟨hashed, hcontent⟩ := StoredFile.mk.inj e
  obtain ⟨-, named, declared⟩ := FileContent.mk.inj hcontent
  obtain ⟨n, hn, hid, hown⟩ := hf.ownFiles f hmem
  rw [← hid, hs.nameOf_eq hn] at named
  have nothing : made = [] := by
    rw [List.eq_nil_iff_forall_not_mem]
    intro x hx
    have above : x ∈ dottedPrefixes reading.namespaceName := by
      rw [created.chain]
      exact List.mem_append_right _ hx
    have there : reading.namespaceName ∈ s.namesIn f.repository :=
      Store.mem_namesIn.2 ⟨n, hn, hown, named.symm⟩
    exact created.missing x hx (hf.mem_of_mem_dottedPrefixes there above)
  obtain rfl := created.untouched nothing
  have same : node = n := hs.namespace_unique created.mem hn (created.own.trans hown.symm)
    (created.named.trans named)
  have lies : f.namespaceId = node.id := by rw [same, hid]
  exact Store.replaceFileFacts_sameFacts hs hmem lies hashed.symm declared.symm ok

theorem Ingested.sameFacts {paths : List String} (h : Ingested language key fetch paths s t)
    (hs : s.Consistent) (hf : s.Forest)
    (settled : ∀ path ∈ paths, ∀ e, fetched? language fetch path = some e →
      s.stored? key path = some e) : s.SameFacts t := by
  induction h with
  | nil s => exact .refl s
  | failed _ _ ih => exact ih hs hf fun path hpath => settled path (List.mem_cons_of_mem _ hpath)
  | @stored path rest s u t text reading storable stores others ih =>
    obtain ⟨hu, -⟩ := stores.run.consistent hs
    have first := settled path (List.mem_cons_self ..) _ (fetched?_of_storable storable)
    have same := stores.sameFacts hs hf first
    refine same.trans (ih hu (stores.run.forest hs hf) fun place hplace e he => ?_)
    rw [same.stored?]
    exact settled place (List.mem_cons_of_mem _ hplace) e he

end CodeOutline.Ingest
