import CodeOutline.Proofs.Service.Failure

/-!
# How far a generation passes

A generation that has come to the files of a repository fails at the ingestion for three reasons only,
and all of them are seen in what became of the files. It has then removed nothing. One that passes
removes what is no longer listed, and fails at the assembly just where no file is listed: a file that
has been stored keeps its namespace, and where no file is listed nothing of the repository is left.

The store answers for every parent that it is asked about, so that the tree of a document is never
incomplete (`history_passage`).
-/

namespace CodeOutline.Graph.Store

variable {s t u : Store} {key : String}

/-! ## Stores from which nothing is removed -/

/-- Every namespace of `s` is still there, and so is every file, with its number and at its path. -/
structure Retains (s t : Store) : Prop where
  namespaces : ∀ n ∈ s.namespaces.rows, n ∈ t.namespaces.rows
  files : ∀ f ∈ s.files.rows, ∃ f' ∈ t.files.rows, f'.id = f.id ∧ f.SameKey f'

namespace Retains

theorem refl (s : Store) : s.Retains s :=
  ⟨fun _ hn => hn, fun f hf => ⟨f, hf, rfl, rfl, rfl⟩⟩

theorem trans (h : s.Retains t) (h' : t.Retains u) : s.Retains u where
  namespaces n hn := h'.namespaces n (h.namespaces n hn)
  files f hf := by
    obtain ⟨f', hf', hid, hkey⟩ := h.files f hf
    obtain ⟨f'', hf'', hid', hkey'⟩ := h'.files f' hf'
    exact ⟨f'', hf'', hid'.trans hid, hkey.trans hkey'⟩

theorem putRepository {draft : RepositoryDraft} {row : Repository}
    (ok : s.putRepository draft = .ok (row, t)) : s.Retains t := by
  rw [putRepository_frame ok]
  exact ⟨(refl s).namespaces, (refl s).files⟩

/-- New namespaces leave the old ones where they are. -/
theorem created {target : String} {node : Namespace} {found made : List String}
    (h : Created key target s t node found made) : s.Retains t := by
  rw [h.grows]
  exact ⟨fun n hn => List.mem_append_left _ hn, (refl s).files⟩

/-- The row of a file is changed in its place. -/
theorem putFile {draft : FileDraft} {row : SourceFile} (hs : s.Consistent)
    (ok : s.putFile draft = .ok (row, t)) : s.Retains t := by
  obtain ⟨_, _, _, -, -, -, -, ⟨old, hold, hrow, rfl⟩ | ⟨-, -, rfl⟩⟩ := putFile_ok ok
  · refine ⟨(refl s).namespaces, fun f hf => ⟨_, List.mem_map_of_mem hf, ?_⟩⟩
    split
    · next same =>
      obtain rfl := hs.fileIds.eq_of_id hf (file?_eq_some hold).1 same
      rw [hrow]
      exact ⟨rfl, rfl, rfl⟩
    · exact ⟨rfl, rfl, rfl⟩
  · exact ⟨(refl s).namespaces, fun f hf => ⟨f, List.mem_append_left _ hf, rfl, rfl, rfl⟩⟩

theorem replaceFileFacts {draft : FileDraft} {types : List TypeDraft} {row : SourceFile}
    (hs : s.Consistent) (ok : s.replaceFileFacts draft types = .ok (row, t)) : s.Retains t := by
  obtain ⟨put, frame⟩ := replaceFileFacts_frame ok
  rw [frame]
  have files := putFile hs put
  exact ⟨files.namespaces, files.files⟩

end Retains

end CodeOutline.Graph.Store

namespace CodeOutline.Ingest

open CodeOutline.Graph CodeOutline.Remote

/-- Going through files removes nothing. -/
theorem Ingested.retains {language : Language} {key : String} {fetch : String → Call String}
    {paths : List String} {s t : Store} (h : Ingested language key fetch paths s t)
    (hs : s.Consistent) : s.Retains t := by
  induction h with
  | nil s => exact .refl s
  | failed _ _ ih => exact ih hs
  | stored _ stores _ ih =>
    obtain ⟨hu, -⟩ := stores.run.consistent hs
    obtain ⟨_, node, found, made, row, created, ok⟩ := stores
    have hc := (created.run.consistent hs).1
    exact ((Store.Retains.created created).trans (.replaceFileFacts hc ok)).trans (ih hu)

end CodeOutline.Ingest

namespace CodeOutline.Service

open CodeOutline.Files CodeOutline.Graph CodeOutline.Ingest CodeOutline.Remote CodeOutline.Report

/-! ## Reports that are not accepted -/

/-- Some file was not started, or files are listed and none of them could be stored, or one failed
although none may. -/
def Refused (settings : Settings) (paths : List String) (outcomes : List Outcome) : Prop :=
  (∃ o ∈ outcomes, o.isSkipped) ∨ (paths ≠ [] ∧ ∀ o ∈ outcomes, ¬ o.isStored) ∨
    (settings.failOnErrors ∧ ∃ o ∈ outcomes, o.isFailed)

variable {settings : Settings} {paths : List String}

theorem accepted_eq_ok_iff {report : Ingest.Report} :
    accepted settings paths report = .ok report ↔ ¬ Refused settings paths report.outcomes := by
  have skipped : report.skipped ≠ 0 ↔ ∃ o ∈ report.outcomes, o.isSkipped := by
    rw [← Nat.pos_iff_ne_zero]
    exact List.countP_pos_iff
  have stored : report.stored = 0 ↔ ∀ o ∈ report.outcomes, ¬ o.isStored := List.countP_eq_zero
  have failed : report.failed ≠ 0 ↔ ∃ o ∈ report.outcomes, o.isFailed := by
    rw [← Nat.pos_iff_ne_zero]
    exact List.countP_pos_iff
  have nothing : (!paths.isEmpty && report.stored = 0) = true ↔
      paths ≠ [] ∧ ∀ o ∈ report.outcomes, ¬ o.isStored := by
    rw [Bool.and_eq_true, decide_eq_true_eq, stored, Bool.not_eq_true', List.isEmpty_eq_false_iff]
  have intolerant : (report.failed ≠ 0 && settings.failOnErrors) = true ↔
      settings.failOnErrors ∧ ∃ o ∈ report.outcomes, o.isFailed := by
    rw [Bool.and_eq_true, decide_eq_true_eq, failed, and_comm]
  unfold accepted Refused
  rw [← skipped, ← nothing, ← intolerant, not_or, not_or]
  constructor
  · intro accepted
    split at accepted
    · cases accepted
    · next noneSkipped =>
      split at accepted
      · cases accepted
      · next some =>
        split at accepted
        · cases accepted
        · next tolerated => exact ⟨noneSkipped, some, tolerated⟩
  · rintro ⟨noneSkipped, some, tolerated⟩
    rw [if_neg noneSkipped, if_neg some, if_neg tolerated]

/-! ## Stores that are pruned -/

/-- Once no namespace is empty, there are namespaces where there are contents. -/
theorem namesIn_eq_nil_iff {s : Store} {key : String} (hs : s.Consistent) (hf : s.Forest)
    (hnone : s.emptyNamespaces key = []) : s.namesIn key = [] ↔ s.contents key = [] := by
  simp only [List.eq_nil_iff_forall_not_mem, hf.mem_namesIn_iff hs hnone]
  constructor
  · intro unnamed c hc
    exact unnamed c.namespaceName ⟨c, hc, mem_dottedPrefixes_self _⟩
  · rintro empty name ⟨c, hc, -⟩
    exact empty c hc

section Pruned

variable {key : String} {v : Store}

theorem contents_pruned (hv : v.Consistent) (key : String) (paths : List String) :
    (pruned key paths v).contents key = (v.contents key).filter (paths.contains ·.path) := by
  obtain ⟨hkept, -⟩ := hv.deleteFilesExcept key paths
  rw [pruned, Store.deleteEmptyNamespaces_contents hkept, Store.deleteFilesExcept_contents hv]

theorem namesIn_pruned_eq_nil_iff (hv : v.Consistent) (hf : v.Forest) :
    (pruned key paths v).namesIn key = [] ↔ ∀ c ∈ v.contents key, c.path ∉ paths := by
  have run : Store.FactRun key v (pruned key paths v) := pruned_run key paths v
  rw [namesIn_eq_nil_iff (run.consistent hv).1 (run.forest hv hf)
    (Store.emptyNamespaces_deleteEmptyNamespaces _ key), contents_pruned hv, List.filter_eq_nil_iff]
  simp only [List.contains_iff_mem]

/-- Where no file is listed, nothing of the repository is left. -/
theorem pruned_nil (hv : v.Consistent) (hf : v.Forest) (key : String) :
    (pruned key [] v).namespacesOf key = [] ∧ ∀ f ∈ (pruned key [] v).files.rows, f.repository ≠ key := by
  have names : (pruned key [] v).namesIn key = [] :=
    (namesIn_pruned_eq_nil_iff hv hf).2 fun _ _ => List.not_mem_nil
  have contents := contents_pruned hv key []
  simp only [List.contains_nil, List.filter_false, Store.contents, List.map_eq_nil_iff,
    List.filter_eq_nil_iff, decide_eq_true_eq] at contents
  exact ⟨List.map_eq_nil_iff.1 names, contents⟩

end Pruned

/-! ## Generations that come to the files -/

section Generations

variable {g : Generation} {w : World} {repository : Repository} {u : Store} {outcomes : List Outcome}

/-- A file that could be stored is there, at a path that is listed. -/
theorem exists_content_of_stored {language : Language} {key : String}
    {fetch : String → Call String} {v : Store} (facts : Ingested language key fetch paths u v)
    (hu : u.Consistent) (results : paths.map (resultOf language fetch) = outcomes.map .ok)
    {o : Outcome} (ho : o ∈ outcomes) (stored : o.isStored) :
    ∃ c ∈ v.contents key, c.path ∈ paths := by
  have answered : (.ok o : Except RemoteFault Outcome) ∈ paths.map (resultOf language fetch) := by
    rw [results]
    exact List.mem_map_of_mem ho
  obtain ⟨path, hpath, hresult⟩ := List.mem_map.1 answered
  obtain ⟨-, known, -⟩ := outcome_of_resultOf hresult
  obtain ⟨e, he⟩ := Option.isSome_iff_exists.1 (known.symm.trans stored)
  have there : v.stored? key path = some e := by
    rw [facts.stored?_eq hu, if_pos ⟨rfl, hpath⟩, he, Option.some_or]
  obtain ⟨f, hf, rfl, rfl, -⟩ := Store.stored?_eq_some there
  exact ⟨v.contentOf f, List.mem_map_of_mem (List.mem_filter.2 ⟨hf, decide_eq_true rfl⟩), hpath⟩

/-- The generation ends in one of the ways in which a generation can end that asks for this
repository. -/
theorem Generation.Lists.ended_of_known (h : g.Lists w.store repository u paths) :
    ∃ owner name, refreshed g.remote owner name w.store = .ok (repository, u) ∧
      Ended g.remote g.settings g.random owner name g.force g.toStart { w with disk := g.disk }
        (g.perform w).1 (g.perform w).2.store (g.perform w).2.disk := by
  obtain ⟨draft, known, put⟩ := h.known
  unfold Generation.perform
  rcases generate_ended g.remote g.settings g.random g.owner g.name g.force g.toStart
      { w with disk := g.disk } with ⟨refused, -⟩ | ⟨owner, name, howner, hname, hnames, ended⟩
  · cases refused.symm.trans known
  · refine ⟨owner, name, refreshed_eq_ok.2 ⟨draft, ?_, put⟩, ended⟩
    simpa only [howner, hname, requested, hnames, Bool.false_eq_true, if_false] using known

/-- What the export of a generation comes to, and the store after it. -/
def exportEnd (g : Generation) (repository : Repository) (report : Ingest.Report) (s : Store) :
    Except Fault Result × Store :=
  match exported g.settings g.random repository report s g.disk with
  | .error fault => (.error fault, s)
  | .ok (result, t) => (.ok result, t)

/-- The files are gone through. Then the report is not accepted, or what is not listed is removed and
the rest is exported. -/
theorem Generation.Lists.passes (h : g.Lists w.store repository u paths)
    (results : resultsOf g.settings.language (g.remote.text repository.owner repository.name)
      g.toStart paths = outcomes.map .ok) :
    let report : Ingest.Report := ⟨repository.graphKey, outcomes⟩
    ∃ v, Ingested g.settings.language repository.graphKey
        (g.remote.text repository.owner repository.name) (started g.toStart paths) u v ∧
      ((g.perform w).1, (g.perform w).2.store) =
        match accepted g.settings paths report with
        | .error fault => (.error fault, v)
        | .ok report => exportEnd g repository report (pruned repository.graphKey paths v) := by
  intro report
  have all := mapM_eq_ok.2 ((List.map_id _).trans results)
  have ingestion : ingestion g.remote g.settings repository.owner repository.name g.toStart =
      accepted g.settings paths report := by
    rw [ingestion_of_listed h.listing, all]
    rfl
  obtain ⟨owner, name, known, ended⟩ := h.ended_of_known
  generalize (g.perform w).2.disk = d at ended
  generalize (g.perform w).2.store = t at ended ⊢
  generalize (g.perform w).1 = answered at ended ⊢
  cases ended with
  | unknown no => cases no.symm.trans known
  | reused known' fresh free =>
    cases known'.symm.trans known
    rcases h.renewed with forced | stale
    · cases forced.symm.trans free
    · cases fresh.symm.trans stale
  | refused known' _ answer facts =>
    cases known'.symm.trans known
    rcases facts with ⟨-, no⟩ | ⟨paths', listing', facts⟩
    · cases no.symm.trans h.listing
    cases listing'.symm.trans h.listing
    exact ⟨_, facts, by rw [← ingestion, answer]⟩
  | unsaved known' _ listing' answer facts unsaved =>
    cases known'.symm.trans known
    cases listing'.symm.trans h.listing
    refine ⟨_, facts, ?_⟩
    rw [← ingestion, answer]
    simp only [exportEnd, unsaved]
  | made known' _ listing' answer facts saved =>
    cases known'.symm.trans known
    cases listing'.symm.trans h.listing
    refine ⟨_, facts, ?_⟩
    rw [← ingestion, answer]
    simp only [exportEnd, saved]

/-- The answer is a failure of the given stage. -/
def FailsIn (stage : Stage) (answer : Except Fault Result) : Prop :=
  ∃ e : GenerationError, answer = .error (.generation e) ∧ e.stage = stage

/-- An export fails at the assembly where there are no namespaces, and at the ingestion never. -/
theorem failsIn_exportEnd (g : Generation) (report : Ingest.Report) {s : Store}
    (hs : s.Consistent) (hf : s.Forest) (hr : repository ∈ s.repositories.rows) :
    ¬ FailsIn .ingestion (exportEnd g repository report s).1 ∧
      (FailsIn .assembly (exportEnd g repository report s).1 ↔
        s.namesIn repository.graphKey = []) ∧
      (s.namesIn repository.graphKey = [] → (exportEnd g repository report s).2 = s) := by
  unfold exportEnd
  cases ended : exported g.settings g.random repository report s g.disk with
  | ok made =>
    obtain ⟨tree, _, _, htree, -⟩ := exported_eq_ok.1 ended
    obtain ⟨named, -⟩ := (exists_treeOf_iff hs hf .insertion _).1 ⟨tree, htree, rfl⟩
    exact ⟨nofun, ⟨nofun, fun unnamed => absurd unnamed named⟩, fun unnamed => absurd unnamed named⟩
  | error fault =>
    dsimp only
    rcases exported_error hs hr ended with ⟨f, nothing, rfl⟩ | ⟨tree, htree, unwritten⟩
    · have unnamed : s.namesIn repository.graphKey = [] := by
        by_contra named
        obtain ⟨tree, htree, -⟩ := (exists_treeOf_iff hs hf .insertion _).2 ⟨named, rfl⟩
        cases nothing.symm.trans htree
      refine ⟨?_, ⟨fun _ => unnamed, fun _ => ⟨_, rfl, rfl⟩⟩, fun _ => rfl⟩
      rintro ⟨e, same, stage⟩
      cases same
      cases stage
    · obtain ⟨named, -⟩ := (exists_treeOf_iff hs hf .insertion _).1 ⟨tree, htree, rfl⟩
      have elsewhere (stage : Stage) (h : stage ≠ .exporting) : ¬ FailsIn stage (.error fault) := by
        rintro ⟨e, same, hstage⟩
        rcases outputOf_error unwritten with ⟨f, rfl⟩ | ⟨_, place, -, -, rfl⟩
        · cases same
          exact h hstage.symm
        · cases same
      exact ⟨elsewhere _ (by decide), ⟨fun fails => absurd fails (elsewhere _ (by decide)),
        fun unnamed => absurd unnamed named⟩, fun _ => rfl⟩

end Generations

/-- Texts and failures that callers are prepared for make outcomes. -/
theorem exists_outcomes (language : Language) {fetch : String → Call String} (toStart : Option Nat)
    (usable : ∀ path ∈ paths, ∀ fault, (fetch path).result = .error fault → ∃ f, fault = .fetch f) :
    ∃ outcomes : List Outcome, resultsOf language fetch toStart paths = outcomes.map .ok := by
  have each : ∀ x ∈ resultsOf language fetch toStart paths, ∃ o, id x = .ok o ∧ True := by
    intro x hx
    rcases List.mem_append.1 hx with hx | hx
    · obtain ⟨path, hpath, rfl⟩ := List.mem_map.1 hx
      cases answer : resultOf language fetch path with
      | ok o => exact ⟨o, rfl, trivial⟩
      | error fault =>
        obtain ⟨result, unforeseen⟩ := resultOf_error_iff.1 answer
        obtain ⟨f, rfl⟩ := usable path (started_subset toStart paths hpath) fault result
        exact absurd rfl (unforeseen f)
    · obtain ⟨path, -, rfl⟩ := List.mem_map.1 hx
      exact ⟨_, rfl, trivial⟩
  obtain ⟨outcomes, all, -⟩ := exists_map_ok each
  exact ⟨outcomes, (List.map_id _).symm.trans all⟩

/-- Where no file is listed there is nothing to refuse. -/
theorem not_refused_nil {language : Language} {fetch : String → Call String} {toStart : Option Nat}
    {outcomes : List Outcome} (results : resultsOf language fetch toStart [] = outcomes.map .ok) :
    ¬ Refused settings [] outcomes := by
  have none : outcomes = [] := by
    have paths := paths_of_resultsOf results
    exact List.map_eq_nil_iff.1 paths
  rw [none, Refused]
  simp

section Generations

variable {g : Generation} {w : World} {repository : Repository} {u : Store} {outcomes : List Outcome}

/-- A generation whose report is refused has removed nothing. -/
theorem Generation.Lists.of_refused (lists : g.Lists w.store repository u paths)
    (hs : w.store.Consistent)
    (results : resultsOf g.settings.language (g.remote.text repository.owner repository.name)
      g.toStart paths = outcomes.map .ok) (refused : Refused g.settings paths outcomes) :
    FailsIn .ingestion (g.perform w).1 ∧ w.store.Retains (g.perform w).2.store := by
  obtain ⟨draft, -, put⟩ := lists.known
  obtain ⟨hu, -⟩ := hs.putRepository put
  obtain ⟨v, facts, ended⟩ := lists.passes results
  cases verdict : accepted g.settings paths ⟨repository.graphKey, outcomes⟩ with
  | ok report =>
    obtain ⟨rfl, -⟩ := accepted_ok verdict
    exact absurd refused (accepted_eq_ok_iff.1 verdict)
  | error fault =>
    rw [verdict] at ended
    obtain ⟨answered, stored⟩ := Prod.mk.inj ended
    obtain ⟨e, rfl, stage, -⟩ := accepted_error verdict
    rw [answered, stored]
    exact ⟨⟨e, rfl, stage⟩, (Store.Retains.putRepository put).trans (facts.retains hu)⟩

/-- A generation whose report is accepted fails at the assembly where no file is listed, and then
nothing of the repository is left. -/
theorem Generation.Lists.of_accepted (lists : g.Lists w.store repository u paths)
    (hs : w.store.Consistent) (hf : w.store.Forest)
    (results : resultsOf g.settings.language (g.remote.text repository.owner repository.name)
      g.toStart paths = outcomes.map .ok) (passed : ¬ Refused g.settings paths outcomes) :
    ¬ FailsIn .ingestion (g.perform w).1 ∧ (FailsIn .assembly (g.perform w).1 ↔ paths = []) ∧
      (paths = [] → (g.perform w).2.store.namespacesOf repository.graphKey = [] ∧
        ∀ f ∈ (g.perform w).2.store.files.rows, f.repository ≠ repository.graphKey) := by
  obtain ⟨draft, -, put⟩ := lists.known
  obtain ⟨hu, -⟩ := hs.putRepository put
  have hfu := hf.putRepository put
  obtain ⟨v, facts, ended⟩ := lists.passes results
  obtain ⟨hv, -⟩ := facts.run.consistent hu
  have hfv := facts.run.forest hu hfu
  obtain ⟨run, hp, hr⟩ := pruned_known facts hs put paths
  let report : Ingest.Report := ⟨repository.graphKey, outcomes⟩
  have verdict : accepted g.settings paths report = .ok report := accepted_eq_ok_iff.2 passed
  rw [verdict] at ended
  have answered : (g.perform w).1 = (exportEnd g repository report _).1 := congrArg Prod.fst ended
  have stored : (g.perform w).2.store = (exportEnd g repository report _).2 := congrArg Prod.snd ended
  obtain ⟨notIngestion, assembly, unchanged⟩ :=
    failsIn_exportEnd g report hp (run.forest hu hfu) hr
  have unnamed : (pruned repository.graphKey paths v).namesIn repository.graphKey = [] ↔
      paths = [] := by
    rw [namesIn_pruned_eq_nil_iff hv hfv]
    constructor
    · intro unlisted
      by_contra listed
      have ingestion : ingestion g.remote g.settings repository.owner repository.name g.toStart =
          .ok report := by
        rw [ingestion_of_listed lists.listing, mapM_eq_ok.2 ((List.map_id _).trans results)]
        exact verdict
      obtain ⟨all, answers⟩ := ingestion_ok ingestion lists.listing
      rw [all] at facts
      have some : ∃ o ∈ outcomes, o.isStored := by
        by_contra none
        exact passed (.inr (.inl ⟨listed, fun o ho stored => none ⟨o, ho, stored⟩⟩))
      obtain ⟨o, ho, stored⟩ := some
      obtain ⟨c, hc, there⟩ := exists_content_of_stored facts hu answers ho stored
      exact unlisted c hc there
    · rintro rfl c -
      exact List.not_mem_nil
  rw [answered, stored]
  refine ⟨notIngestion, assembly.trans unnamed, fun unlisted => ?_⟩
  rw [unchanged (unnamed.2 unlisted), unlisted]
  exact pruned_nil hv hfv repository.graphKey

end Generations

/-- Of the assembly there is one error only: that nothing is found. -/
theorem Generation.FailsAt.complete {g : Generation} {views : String → String → View} {stage : Stage}
    {e : GenerationError} (h : g.FailsAt views stage e) (repository : String)
    (namespaces files types : Nat) :
    e.fault ≠ .assembly (.incomplete repository namespaces files types) := by
  cases h with
  | metadata | listing | assembly => nofun
  | report _ _ _ refused =>
    obtain ⟨_, same, stage, -⟩ := accepted_error refused
    cases same
    intro incomplete
    rw [GenerationError.stage, incomplete] at stage
    cases stage
  | exporting _ _ refused =>
    rcases outputOf_error refused with ⟨f, same⟩ | ⟨_, _, -, -, same⟩
    · cases same
      nofun
    · cases same

/-- After any generations, consider one that comes to the files of a repository, where each file has an
answer that callers are prepared for. It fails at the ingestion just where the report on the files is
refused, and then nothing is gone. Where the report is accepted, it fails at the assembly just where no
file is listed, and then nothing of the repository is left. No tree is ever incomplete. -/
theorem history_passage (generations : List Generation) (g : Generation) :
    let w := (history generations).world
    let answer := (g.perform w).1
    let t := (g.perform w).2.store
    (∀ e, answer = .error (.generation e) → ∀ repository namespaces files types,
      e.fault ≠ .assembly (.incomplete repository namespaces files types)) ∧
    ∀ {repository : Repository} {u : Store} {paths : List String},
      g.Lists w.store repository u paths →
      (∀ path ∈ paths, ∀ fault,
        (g.remote.text repository.owner repository.name path).result = .error fault →
          ∃ f, fault = .fetch f) →
      ∃ outcomes : List Outcome,
        resultsOf g.settings.language (g.remote.text repository.owner repository.name) g.toStart
            paths = outcomes.map .ok ∧
          (∀ report, reportIn? answer = some report → report.outcomes = outcomes) ∧
          (FailsIn .ingestion answer ↔ Refused g.settings paths outcomes) ∧
          (Refused g.settings paths outcomes → w.store.Retains t) ∧
          (¬ Refused g.settings paths outcomes → (FailsIn .assembly answer ↔ paths = [])) ∧
          (paths = [] → t.namespacesOf repository.graphKey = [] ∧
            ∀ f ∈ t.files.rows, f.repository ≠ repository.graphKey) := by
  intro w answer t
  have hs : w.store.Consistent := (history_recorded generations).consistent
  have hf : w.store.Forest := history_forest generations
  refine ⟨fun e failed repository namespaces files types incomplete => ?_,
    fun {repository u paths} lists usable => ?_⟩
  · rcases (history_failure generations g _).1 failed with ⟨-, no⟩ | ⟨_, same, fails⟩ | ⟨_, escapes⟩
    · cases no
    · cases same
      exact fails.complete repository namespaces files types incomplete
    · cases escapes
  obtain ⟨outcomes, results⟩ := exists_outcomes g.settings.language g.toStart usable
  refine ⟨outcomes, results, fun report reported => ?_, ?_⟩
  · have same := (lists.outcomes hs reported).symm.trans results
    exact List.map_injective_iff.2 (fun _ _ e => Except.ok.inj e) same
  by_cases refused : Refused g.settings paths outcomes
  · obtain ⟨fails, retains⟩ := lists.of_refused hs results refused
    refine ⟨iff_of_true fails refused, fun _ => retains, fun passed => absurd refused passed, ?_⟩
    rintro rfl
    exact absurd refused (not_refused_nil results)
  · obtain ⟨passes, assembly, nothing⟩ := lists.of_accepted hs hf results refused
    exact ⟨iff_of_false passes refused, fun no => absurd no refused, fun _ => assembly, nothing⟩

/-! ## A file that breaks, and a tree without sources -/

/-- A generation of a commit of two files. -/
def twoFiled : Generation :=
  .ofFiles "c0ffee" [("A.java", "class A {}"), ("B.java", "class B {}")]

/-- A generation of the next commit that does not ask for the saved document. -/
def forcedOf (files : List (String × String)) : Generation :=
  { Generation.ofFiles "decade" files with force := true }

theorem forcedOf_lists (files : List (String × String)) (paths : List String)
    (handled : handledPaths .java (files.map fun f => { kind := "file", path := .text f.1 }) =
      .ok paths) {s : Store} (hs : s.Consistent) :
    ∃ repository u, (forcedOf files).Lists s repository u paths ∧
      repository.graphKey = "acme/tool" := by
  let draft : RepositoryDraft := ⟨some "acme", some "tool", "decade", some "A tool", some "main"⟩
  obtain ⟨repository, u, put⟩ : ∃ row u, s.putRepository draft = .ok (row, u) :=
    Store.exists_putRepository rfl rfl rfl s
  have listing : listed (forcedOf files).remote (forcedOf files).settings repository.owner
      repository.name = .ok paths := by
    change (handledPaths .java _).mapError Fault.remote = _
    rw [handled]
    rfl
  obtain ⟨owner, name, -⟩ := Store.putRepository_documents hs put
  refine ⟨repository, u, ⟨⟨_, rfl, put⟩, .inl rfl, listing⟩, ?_⟩
  rw [Repository.graphKey, Repository.slug, ← Option.some.inj owner, ← Option.some.inj name]
  decide

/-- The texts of a commit are all there. -/
theorem forcedOf_usable (files : List (String × String)) (owner name path : String)
    (fault : RemoteFault) (h : ((forcedOf files).remote.text owner name path).result = .error fault) :
    ∃ f, fault = .fetch f := by
  cases h

/-- What becomes of the files of a commit is told by their texts. -/
theorem forcedOf_results {files : List (String × String)} {owner name : String}
    {outcomes : List Outcome}
    (h : resultsOf (forcedOf files).settings.language ((forcedOf files).remote.text owner name)
      (forcedOf files).toStart paths = outcomes.map .ok) :
    resultsOf .java (fun path => ⟨.ok ((files.lookup path).getD ""), [], []⟩) none paths =
      outcomes.map .ok :=
  h

/-- After a commit of two files, one that leaves a broken file removes nothing, and one that leaves no
source at all leaves nothing. -/
theorem history_passage_of_broken_file :
    let broken := forcedOf [("A.java", "class")]
    let unlisted := forcedOf [("README.md", "A tool")]
    FailsIn .ingestion (broken.perform (history [twoFiled]).world).1 ∧
      (history [twoFiled]).world.store.Retains (broken.perform (history [twoFiled]).world).2.store ∧
      FailsIn .assembly (unlisted.perform (history [twoFiled]).world).1 ∧
      (unlisted.perform (history [twoFiled]).world).2.store.namespacesOf "acme/tool" = [] := by
  have hs : (history [twoFiled]).world.store.Consistent := (history_recorded [twoFiled]).consistent
  obtain ⟨repository, u, lists, -⟩ := forcedOf_lists [("A.java", "class")] ["A.java"]
    (by decide +kernel) hs
  obtain ⟨outcomes, results, -, ingestion, retains, -⟩ :=
    (history_passage [twoFiled] (forcedOf [("A.java", "class")])).2 lists
      fun path _ => forcedOf_usable _ _ _ path
  have broken : ((resultsOf .java (fun path => ⟨.ok (([("A.java", "class")].lookup path).getD ""),
      [], []⟩) none ["A.java"]).all fun result => result.toOption.any (!·.isStored)) = true := by
    decide +kernel
  rw [forcedOf_results results, List.all_map, List.all_eq_true] at broken
  have refused : Refused (forcedOf [("A.java", "class")]).settings ["A.java"] outcomes := by
    refine .inr (.inl ⟨nofun, fun o ho stored => ?_⟩)
    have unstored := broken o ho
    rw [Function.comp_apply, Except.toOption, Option.any_some, stored] at unstored
    cases unstored
  obtain ⟨repository', u', lists', hkey⟩ := forcedOf_lists [("README.md", "A tool")] []
    (by decide +kernel) hs
  obtain ⟨outcomes', results', -, -, -, assembly, nothing⟩ :=
    (history_passage [twoFiled] (forcedOf [("README.md", "A tool")])).2 lists'
      fun path _ => forcedOf_usable _ _ _ path
  have left := (nothing rfl).1
  rw [hkey] at left
  exact ⟨ingestion.2 refused, retains refused, (assembly (not_refused_nil results')).2 rfl, left⟩

end CodeOutline.Service
