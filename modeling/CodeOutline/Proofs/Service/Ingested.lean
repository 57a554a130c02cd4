import CodeOutline.Proofs.Ingest.Contents
import CodeOutline.Proofs.Report.Document
import CodeOutline.Proofs.Service.Stage

/-!
# Reports of ingested files

From files to text without a store: each file that can be read is a content, and the document of these
contents, below the chains of their namespaces, is what ingestion, assembly and rendering come to.
-/

namespace CodeOutline.Service

open CodeOutline.Graph CodeOutline.Ingest CodeOutline.Remote CodeOutline.Report CodeOutline.Text

/-- What the files say, each a path and a text; files that cannot be read are left out. -/
def contentsOf (language : Language) (files : List (String × String)) : List FileContent :=
  files.filterMap fun (path, text) =>
    (readingOf language text).map fun r => ⟨path, r.namespaceName, r.types⟩

/-- The text of a report on some files, computed from the files alone. -/
def reportText (language : Language) (order : Order) (heading : Heading)
    (files : List (String × String)) : String :=
  documentText order heading (chainsOf (contentsOf language files)) (contentsOf language files)

variable {language : Language} {fetch : String → Call String} {files : List (String × String)}

/-- What is fetched and read of served files is what they say. -/
theorem parsed_of_served (serves : ∀ f ∈ files, (fetch f.1).result = .ok f.2) :
    parsed language fetch (files.map (·.1)) = contentsOf language files := by
  unfold parsed contentsOf
  rw [List.filterMap_map]
  refine List.filterMap_congr fun f hf => ?_
  simp only [Function.comp_apply, storable?, serves f hf]
  cases readingOf language f.2 <;> rfl

theorem chainsOf_eq_nil {contents : List FileContent} : chainsOf contents = [] ↔ contents = [] := by
  constructor
  · intro h
    cases contents with
    | nil => rfl
    | cons c rest =>
      have : c.namespaceName ∈ chainsOf (c :: rest) := by
        unfold chainsOf
        rw [List.mem_eraseDups, List.flatMap_cons, List.mem_append]
        exact .inl (mem_dottedPrefixes_self _)
      rw [h] at this
      cases this
  · rintro rfl
    rfl

/-- The report of a repository in a store follows from the names of its namespaces and its contents. -/
theorem assemble_render {s : Store} (hs : s.Consistent) (hf : s.Forest) (order : Order)
    (heading : Heading) (key : String) :
    (assemble .store heading (s.namespacesOf key) s).1.map (Tree.render order) =
      if (s.namesIn key).isEmpty then .error (.notFound heading.name)
      else .ok (documentText order heading (s.namesIn key) (s.contents key)) := by
  have nodup : ((s.namespacesOf key).map (·.id)).Nodup :=
    hs.namespaceIds.nodup.sublist (List.filter_sublist.map _)
  have empty : (s.namesIn key).isEmpty = (s.namespacesOf key).isEmpty := by
    rw [Store.namesIn, List.isEmpty_map]
  rw [assemble_store hs nodup, empty]
  split
  · rfl
  · rw [← render_treeIn hs hf]
    rfl

/-- Files with different paths that are ingested into an empty store: those that can be read are
stored, and the report of the store is the text computed from the files alone. Without any file that
can be read there is no report. -/
theorem report_of_ingested (repository : Repository) (distinct : (files.map (·.1)).Nodup)
    (serves : ∀ f ∈ files, (fetch f.1).result = .ok f.2) :
    let key := repository.graphKey
    let ingested := Progress.ingestAll {} language key (files.map (·.1)) fetch none
    let s := ingested.2.store
    (∃ report, ingested.1 = .ok report ∧
        report.outcomes.map (fun o => (o.path, o.isStored)) =
          files.map fun f => (f.1, (readingOf language f.2).isSome)) ∧
      (assemble .store (headingOf repository) (s.namespacesOf key) s).1.map (Tree.render .insertion) =
        if (contentsOf language files).isEmpty then .error (.notFound repository.name)
        else .ok (reportText language .insertion (headingOf repository) files) := by
  intro key ingested s
  have hkey : isBlankText key = false := isBlankText_slugOf ..
  have stored : Ingested language key fetch (files.map (·.1)) {} s :=
    ingestAll_ingested hkey {} (files.map (·.1)) none
  obtain ⟨hs, -⟩ := stored.run.consistent Store.consistent_empty
  have hf := stored.run.forest Store.consistent_empty Store.forest_empty
  obtain ⟨contents, names⟩ := stored.contents_of_empty distinct
  rw [parsed_of_served serves] at contents names
  constructor
  · have results : resultsOf language fetch none (files.map (·.1)) =
        (files.map fun f => outcomeOf language f.1 f.2).map .ok := by
      simp only [resultsOf, started, List.drop_length, List.map_nil, List.append_nil, List.map_map]
      refine List.map_congr_left fun f hmem => ?_
      simp only [Function.comp_apply, resultOf, serves f hmem]
    refine ⟨⟨key, files.map fun f => outcomeOf language f.1 f.2⟩, ?_, ?_⟩
    · rw [show ingested.1 = _ from ingestAll_report hkey {} (files.map (·.1)) none,
        mapM_eq_ok.2 ((List.map_id _).trans results)]
    · rw [List.map_map]
      exact List.map_congr_left fun f _ => Prod.ext path_outcomeOf isStored_outcomeOf
  · rw [assemble_render hs hf, names, contents]
    have empty : (chainsOf (contentsOf language files)).isEmpty =
        (contentsOf language files).isEmpty := by
      rw [Bool.eq_iff_iff, List.isEmpty_iff, List.isEmpty_iff, chainsOf_eq_nil]
    rw [empty]
    rfl

/-- Of two files the one that is no source of the language is left out. -/
theorem report_of_two_files :
    let repository : Repository := ⟨1, "acme", "tool", "c0ffee", none, "main", 0⟩
    let files :=
      [("src/B.java", "package a.b;\nclass B { int x; void f() {} }"), ("src/C.java", "class")]
    let fetch (path : String) : Call String := ⟨.ok ((files.lookup path).getD ""), [], []⟩
    let key := repository.graphKey
    let s := (Progress.ingestAll {} .java key (files.map (·.1)) fetch none).2.store
    (contentsOf .java files).length = 1 ∧
      (assemble .store (headingOf repository) (s.namespacesOf key) s).1.map (Tree.render .insertion) =
        .ok (reportText .java .insertion (headingOf repository) files) := by
  intro repository files fetch key s
  have one : (contentsOf .java files).length = 1 := by decide +kernel
  have nonempty : (contentsOf .java files).isEmpty = false := by
    rw [List.isEmpty_eq_false_iff_exists_mem]
    exact List.exists_mem_of_length_pos (by rw [one]; exact Nat.one_pos)
  have report := (@report_of_ingested .java fetch files repository (by decide) (by decide)).2
  simp only [nonempty, Bool.false_eq_true, if_false] at report
  exact ⟨one, report⟩

end CodeOutline.Service
