import CodeOutline.Proofs.Service.Made

/-!
# What a new document is made of

The facts behind a new document, file by file. A listed file that can be read has the facts of the text
that this generation has fetched. A listed file that fails keeps the facts of an earlier generation, if
there are any, and these are shown: failing is no reason to forget a file that is still listed.
-/

namespace CodeOutline.Service

open CodeOutline.Graph CodeOutline.Ingest CodeOutline.Remote CodeOutline.Report CodeOutline.Text

/-- What can be stored at a path is what its text says. -/
theorem fetched?_eq_some {language : Language} {fetch : String → Call String} {path : String}
    {e : StoredFile} (h : fetched? language fetch path = some e) :
    ∃ text reading, (fetch path).result = .ok text ∧ readingOf language text = some reading ∧
      e = ⟨Sha256.hex text, path, reading.namespaceName, reading.types⟩ := by
  unfold fetched? storable? at h
  cases hfetch : (fetch path).result with
  | error fault =>
    simp only [hfetch, Option.map_none, reduceCtorEq] at h
  | ok text =>
    simp only [hfetch] at h
    obtain ⟨p, hp, rfl⟩ := Option.map_eq_some_iff.1 h
    obtain ⟨reading, hreading, rfl⟩ := Option.map_eq_some_iff.1 hp
    exact ⟨text, reading, rfl, hreading, rfl⟩

/-- After a new document: a file that was stored has the hash, the namespace, the types and the members
of the text that was fetched; a file that failed has what it had before, or nothing; no other file of
the repository is left; and the text shows just these files. -/
theorem history_facts (generations : List Generation) {g : Generation} {result : Result}
    (ok : (g.perform (history generations).world).1 = .ok result) (new : result.reused = false) :
    let s := (history generations).world.store
    let t := (g.perform (history generations).world).2.store
    ∃ repository report, g.AsksFor repository.owner repository.name ∧
      result.report = some report ∧
      (∀ o ∈ report.outcomes,
        (o.isStored ∧ ∃ text reading,
            (g.remote.text repository.owner repository.name o.path).result = .ok text ∧
            readingOf g.settings.language text = some reading ∧
            t.stored? repository.graphKey o.path =
              some ⟨Sha256.hex text, o.path, reading.namespaceName, reading.types⟩) ∨
          (o.isFailed ∧
            t.stored? repository.graphKey o.path = s.stored? repository.graphKey o.path)) ∧
      (∀ path, path ∉ report.outcomes.map (·.path) → t.stored? repository.graphKey path = none) ∧
      (∀ c, c ∈ t.contents repository.graphKey ↔
        ∃ hash, t.stored? repository.graphKey c.path = some ⟨hash, c⟩) ∧
      (∀ name, name ∈ t.namesIn repository.graphKey ↔
        ∃ c ∈ t.contents repository.graphKey, name ∈ dottedPrefixes c.namespaceName) ∧
      result.text = documentText g.settings.order (headingOf repository)
        (t.namesIn repository.graphKey) (t.contents repository.graphKey) := by
  intro s t
  have hs : s.Consistent := (history_recorded generations).consistent
  have hf : s.Forest := history_forest generations
  obtain ⟨repository, paths, report, u, v, made⟩ := exists_made ok new
  obtain ⟨-, -, -, ht⟩ := made.consistent hs
  obtain ⟨paths_eq, own⟩ := made.outcomes
  refine ⟨repository, report, (made.asks hs).1, made.report_eq, fun o ho => ?_, fun path hpath => ?_,
    fun c => ht.mem_contents_iff, made.mem_namesIn hs hf, (made.text hs hf).2⟩
  · have listed : o.path ∈ paths := paths_eq ▸ List.mem_map_of_mem ho
    obtain ⟨-, isStored, isFailed⟩ := outcome_of_resultOf (own o ho)
    have stored := made.stored?_eq hs repository.graphKey o.path
    rw [if_pos rfl, if_pos listed] at stored
    cases hfetched : fetched? g.settings.language
        (g.remote.text repository.owner repository.name) o.path with
    | some e =>
      obtain ⟨text, reading, htext, hreading, rfl⟩ := fetched?_eq_some hfetched
      rw [hfetched] at stored isStored
      exact .inl ⟨isStored, text, reading, htext, hreading, stored⟩
    | none =>
      rw [hfetched] at stored isFailed
      exact .inr ⟨isFailed, stored⟩
  · rw [paths_eq] at hpath
    have stored := made.stored?_eq hs repository.graphKey path
    rwa [if_pos rfl, if_neg hpath] at stored

/-! ## A file that fails -/

/-- Two files, of which the second one can no longer be read at the second commit. -/
def brokenLater : Generation × Generation :=
  (.ofFiles "c0ffee" [("A.java", "class A {}"), ("B.java", "class B {}")],
    .ofFiles "decade" [("A.java", "class A {}"), ("B.java", "class")])

/-- The second generation succeeds, and says of the second file that it failed. -/
theorem brokenLater_outcomes :
    ∃ result report, (brokenLater.2.perform (history [brokenLater.1]).world).1 = .ok result ∧
      result.reused = false ∧ result.report = some report ∧
      report.outcomes.map (fun o => (o.path, o.isStored)) =
        [("A.java", true), ("B.java", false)] := by
  have outcomes : ((brokenLater.2.perform (history [brokenLater.1]).world).1.toOption.map fun r =>
      (r.reused, r.report.map fun report => report.outcomes.map fun o => (o.path, o.isStored))) =
        some (false, some [("A.java", true), ("B.java", false)]) := by
    decide +kernel
  cases ok : (brokenLater.2.perform (history [brokenLater.1]).world).1 with
  | error fault =>
    rw [ok] at outcomes
    cases outcomes
  | ok result =>
    rw [ok] at outcomes
    obtain ⟨new, hreport⟩ := Prod.mk.inj (Option.some.inj outcomes)
    obtain ⟨report, hsome, all⟩ := Option.map_eq_some_iff.1 hreport
    exact ⟨result, report, rfl, new, hsome, all⟩

/-- The file that failed has what the first commit said. -/
theorem history_facts_of_failed_file :
    ∃ result, (brokenLater.2.perform (history [brokenLater.1]).world).1 = .ok result ∧
      result.reused = false ∧
      ((brokenLater.2.perform (history [brokenLater.1]).world).2.store.stored? "acme/tool" "B.java") =
        (history [brokenLater.1]).world.store.stored? "acme/tool" "B.java" := by
  obtain ⟨result, report, ok, new, hsome, all⟩ := brokenLater_outcomes
  obtain ⟨repository, report', asks, hsome', files, -⟩ := history_facts [brokenLater.1] ok new
  cases hsome.symm.trans hsome'
  obtain ⟨howner, hname⟩ := Generation.asksFor_ofFiles asks
  have key : repository.graphKey = "acme/tool" := by
    rw [Repository.graphKey, Repository.slug, howner, hname]
    rfl
  have failed : ("B.java", false) ∈ report.outcomes.map fun o => (o.path, o.isStored) := by
    rw [all]
    decide
  obtain ⟨o, ho, e⟩ := List.mem_map.1 failed
  obtain ⟨hpath, unstored⟩ := Prod.mk.inj e
  refine ⟨result, ok, new, ?_⟩
  rcases files o ho with ⟨stored, -⟩ | ⟨-, kept⟩
  · rw [unstored] at stored
    cases stored
  · rwa [key, hpath] at kept

/-- The file that failed is still there, although its outcome is no success. -/
theorem failed_file_is_stored :
    ∃ result report, (brokenLater.2.perform (history [brokenLater.1]).world).1 = .ok result ∧
      result.reused = false ∧ result.report = some report ∧
      ¬ ∀ path, (((brokenLater.2.perform (history [brokenLater.1]).world).2.store.file? "acme/tool"
          path).isSome ↔ ∃ o ∈ report.outcomes, o.path = path ∧ o.isStored) := by
  have there : ((brokenLater.2.perform (history [brokenLater.1]).world).2.store.file? "acme/tool"
      "B.java").isSome := by decide +kernel
  obtain ⟨result, report, ok, new, hsome, all⟩ := brokenLater_outcomes
  refine ⟨result, report, ok, new, hsome, fun only => ?_⟩
  obtain ⟨o, ho, hpath, hstored⟩ := (only "B.java").1 there
  have listed : (o.path, o.isStored) ∈ [("A.java", true), ("B.java", false)] :=
    all ▸ List.mem_map_of_mem ho
  rw [hpath, hstored] at listed
  simp at listed

end CodeOutline.Service
