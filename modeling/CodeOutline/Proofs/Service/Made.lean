import CodeOutline.Proofs.Ingest.Stored
import CodeOutline.Proofs.Graph.Needed
import CodeOutline.Proofs.Service.History
import CodeOutline.Proofs.Service.Ingested

/-!
# New documents and the store

A generation that succeeds with a new document has gone through all files that are listed, and what is
stored then is known path by path (`Made.stored?_eq`): at a listed path there is what has just been
fetched and read, or, where that failed, what was there before, and at a path that is not listed there
is nothing. The text is the document of just these contents (`Made.text`).
-/

namespace CodeOutline.Service

open CodeOutline.Files CodeOutline.Graph CodeOutline.Ingest CodeOutline.Remote CodeOutline.Report
open CodeOutline.Text

/-! ## Accepted reports -/

section Ingestion

variable {remote : Remote} {settings : Settings} {owner name : String} {toStart : Option Nat}
variable {paths : List String} {report : Report}

theorem accepted_ok {report' : Report} (h : accepted settings paths report = .ok report') :
    report' = report ∧ report.skipped = 0 := by
  unfold accepted at h
  split at h
  · cases h
  · next hskipped =>
    split at h
    · cases h
    · split at h
      · cases h
      · cases h
        exact ⟨rfl, not_not.1 hskipped⟩

/-- A report that is not accepted is passed on with the failure of the ingestion. -/
theorem accepted_error {fault : Fault} (h : accepted settings paths report = .error fault) :
    ∃ e : GenerationError, fault = .generation e ∧ e.stage = .ingestion ∧ e.report = some report := by
  unfold accepted at h
  split at h
  · cases h
    exact ⟨_, rfl, rfl, rfl⟩
  · split at h
    · cases h
      exact ⟨_, rfl, rfl, rfl⟩
    · split at h
      · cases h
        exact ⟨_, rfl, rfl, rfl⟩
      · cases h

/-- An ingestion that succeeds has started all files, and each has an outcome of its own. -/
theorem ingestion_ok (h : ingestion remote settings owner name toStart = .ok report)
    (hl : listed remote settings owner name = .ok paths) :
    started toStart paths = paths ∧
      paths.map (resultOf settings.language (remote.text owner name)) =
        report.outcomes.map .ok := by
  unfold ingestion at h
  rw [hl] at h
  dsimp only at h
  cases hall : (resultsOf settings.language (remote.text owner name) toStart paths).mapM id with
  | error fault =>
    rw [hall] at h
    cases h
  | ok outcomes =>
    rw [hall] at h
    obtain ⟨rfl, skipped⟩ := accepted_ok h
    have hskipped := List.countP_eq_zero.1 skipped
    have results := (List.map_id _).symm.trans (mapM_eq_ok.1 hall)
    have rest : paths.drop (started toStart paths).length = [] := by
      by_contra hrest
      obtain ⟨path, hpath⟩ := List.exists_mem_of_ne_nil _ hrest
      have hmem : (.ok ⟨path, .skipped⟩ : Except RemoteFault Outcome) ∈
          resultsOf settings.language (remote.text owner name) toStart paths :=
        List.mem_append_right _ (List.mem_map_of_mem hpath)
      rw [results] at hmem
      obtain ⟨o, ho, e⟩ := List.mem_map.1 hmem
      cases e
      exact hskipped _ ho rfl
    have all : started toStart paths = paths := by
      cases toStart with
      | none => rfl
      | some n =>
        have hle := (List.drop_eq_nil_iff.1 rest).trans (List.length_take_le n paths)
        exact List.take_of_length_le hle
    refine ⟨all, ?_⟩
    rw [resultsOf, rest, List.map_nil, List.append_nil, all] at results
    exact results

end Ingestion

/-- Where each answer names what it was asked for, the answers name all that was asked for. -/
theorem map_of_map_ok {ε α β : Type} {f : α → Except ε β} {name : β → α} {l : List α} {m : List β}
    (h : l.map f = m.map .ok) (named : ∀ a b, f a = .ok b → name b = a) : m.map name = l := by
  induction l generalizing m with
  | nil =>
    rw [List.map_nil, eq_comm, List.map_eq_nil_iff] at h
    rw [h, List.map_nil]
  | cons a rest ih =>
    cases m with
    | nil => cases h
    | cons b others =>
      obtain ⟨hb, hothers⟩ := List.cons.inj h
      rw [List.map_cons, named a b hb, ih hothers]

/-- What becomes of a file tells whether it can be stored. -/
theorem outcome_of_resultOf {language : Language} {fetch : String → Call String} {path : String}
    {o : Outcome} (h : resultOf language fetch path = .ok o) :
    o.path = path ∧ o.isStored = (fetched? language fetch path).isSome ∧
      o.isFailed = (fetched? language fetch path).isNone := by
  unfold resultOf at h
  unfold fetched? storable?
  cases hfetch : (fetch path).result with
  | ok text =>
    rw [hfetch] at h
    cases h
    refine ⟨path_outcomeOf, ?_, ?_⟩
    · rw [isStored_outcomeOf, Option.isSome_map, Option.isSome_map]
    · rw [Option.isNone_map, Option.isNone_map]
      unfold outcomeOf readingOf
      split
      · rfl
      · split <;> rfl
  | error fault =>
    rw [hfetch] at h
    cases fault with
    | fetch fault =>
      cases h
      exact ⟨rfl, rfl, rfl⟩
    | _ => cases h

/-! ## Documents of a store -/

section Documents

variable {repository : Repository} {s : Store} {tree : Report.Tree}

/-- There is a tree where there are namespaces, and its text is the document of the contents. -/
theorem exists_treeOf_iff (hs : s.Consistent) (hf : s.Forest) (order : Order) (text : String) :
    (∃ tree, treeOf repository s = .ok tree ∧ tree.render order = text) ↔
      s.namesIn repository.graphKey ≠ [] ∧
        text = documentText order (headingOf repository) (s.namesIn repository.graphKey)
          (s.contents repository.graphKey) := by
  have rendered := assemble_render hs hf order (headingOf repository) repository.graphKey
  rw [ne_eq, ← List.isEmpty_iff]
  unfold treeOf
  constructor
  · rintro ⟨tree, htree, rfl⟩
    rw [htree] at rendered
    split at rendered
    · cases rendered
    · next nonempty => exact ⟨nonempty, Except.ok.inj rendered⟩
  · rintro ⟨nonempty, rfl⟩
    rw [if_neg nonempty] at rendered
    cases htree : (assemble .store (headingOf repository)
        (s.namespacesOf repository.graphKey) s).1 with
    | error fault =>
      rw [htree] at rendered
      cases rendered
    | ok tree =>
      rw [htree] at rendered
      exact ⟨tree, rfl, Except.ok.inj rendered⟩

/-- A tree shows all namespaces of its repository. -/
theorem treeOf_ok (hs : s.Consistent)
    (h : treeOf repository s = .ok tree) :
    tree.namespaces.map (·.node.id) = (s.namespacesOf repository.graphKey).map (·.id) := by
  have nodup : ((s.namespacesOf repository.graphKey).map (·.id)).Nodup :=
    hs.namespaceIds.nodup.sublist (List.filter_sublist.map _)
  unfold treeOf at h
  rw [assemble_store hs nodup] at h
  split at h
  · cases h
  · cases h
    simp only [treeIn, treeWith, List.map_map, Function.comp_def]

/-- After the ingestion the repository is still known. -/
theorem pruned_known {language : Language} {fetch : String → Call String} {started : List String}
    {u v : Store} {draft : RepositoryDraft}
    (facts : Ingested language repository.graphKey fetch started u v) (hs : s.Consistent)
    (put : s.putRepository draft = .ok (repository, u)) (paths : List String) :
    Store.FactRun repository.graphKey u (pruned repository.graphKey paths v) ∧
      (pruned repository.graphKey paths v).Consistent ∧
      repository ∈ (pruned repository.graphKey paths v).repositories.rows := by
  have run : Store.FactRun repository.graphKey u (pruned repository.graphKey paths v) :=
    facts.run.trans (pruned_run ..)
  obtain ⟨-, -, -, -, hr, -⟩ := Store.putRepository_documents hs put
  refine ⟨run, (run.consistent (hs.putRepository put).1).1, ?_⟩
  rw [run.repositories]
  exact hr

/-- The document of a tree is accepted where the repository is known. -/
theorem exists_saved (hs : s.Consistent)
    (hr : repository ∈ s.repositories.rows) (h : treeOf repository s = .ok tree) (text : String)
    (outputPath : Option String) :
    ∃ saved, s.saveSnapshot (documentOf repository tree text outputPath) = .ok saved := by
  unfold documentOf
  rw [treeOf_ok hs h]
  refine Store.exists_saveSnapshot hr (fun i hi => ?_) _ _ _
  obtain ⟨n, hn, rfl⟩ := List.mem_map.1 hi
  exact Store.hasNamespace_iff.2 (.of_mem (List.mem_filter.1 hn).1)

/-- Exporting fails where there is no tree, or where its text cannot be written. -/
theorem exported_error {settings : Settings} {random : String} {report : Report} {d : Disk}
    {fault : Fault} (hs : s.Consistent) (hr : repository ∈ s.repositories.rows)
    (h : exported settings random repository report s d = .error fault) :
    (∃ f, treeOf repository s = .error f ∧ fault = .generation ⟨.assembly f, some report⟩) ∨
      ∃ tree, treeOf repository s = .ok tree ∧
        outputOf settings random repository (tree.render settings.order) report d = .error fault := by
  unfold exported at h
  simp only [bind, Except.bind, Except.mapError] at h
  cases htree : treeOf repository s with
  | error f =>
    rw [htree] at h
    cases h
    exact .inl ⟨f, rfl, rfl⟩
  | ok tree =>
    rw [htree] at h
    dsimp only at h
    cases houtput : outputOf settings random repository (tree.render settings.order) report d with
    | error f =>
      rw [houtput] at h
      cases h
      exact .inr ⟨tree, rfl, houtput⟩
    | ok outputPath =>
      obtain ⟨saved, hsaved⟩ := exists_saved hs hr htree (tree.render settings.order) outputPath
      rw [houtput] at h
      dsimp only at h
      rw [hsaved] at h
      cases h

end Documents

/-! ## What a new document is made of -/

/-- The generation is one for the repository that the remote knows by that owner and name. -/
def Generation.AsksFor (g : Generation) (owner name : String) : Prop :=
  ∃ draft, requested g.remote g.owner g.name = .ok draft ∧ draft.owner = some owner ∧
    draft.name = some name

theorem Generation.asksFor_ofFiles {commit owner name : String} {files : List (String × String)}
    (h : (Generation.ofFiles commit files).AsksFor owner name) : owner = "acme" ∧ name = "tool" := by
  obtain ⟨draft, known, howner, hname⟩ := h
  cases known
  exact ⟨(Option.some.inj howner).symm, (Option.some.inj hname).symm⟩

/-- The generation `g` makes a new document from the store `s` and leaves the store `t`. In between
there is a store `u` in which the repository is known, and a store `v` in which the files at the listed
paths have been gone through. -/
structure Made (g : Generation) (s : Store) (repository : Repository) (paths : List String)
    (report : Report) (u v : Store) (result : Result) (t : Store) : Prop where
  known : ∃ draft, requested g.remote g.owner g.name = .ok draft ∧
    s.putRepository draft = .ok (repository, u)
  listing : listed g.remote g.settings repository.owner repository.name = .ok paths
  answer : ingestion g.remote g.settings repository.owner repository.name g.toStart = .ok report
  facts : Ingested g.settings.language repository.graphKey
    (g.remote.text repository.owner repository.name) paths u v
  saved : exported g.settings g.random repository report (pruned repository.graphKey paths v) g.disk =
    .ok (result, t)

/-- A new document is seen from the answer alone. -/
theorem exists_new {answer : Except Fault Result}
    (h : (answer.toOption.map (·.reused)) = some false) :
    ∃ result, answer = .ok result ∧ result.reused = false := by
  cases answer with
  | error fault => cases h
  | ok result => exact ⟨result, rfl, Option.some.inj h⟩

theorem exists_made {g : Generation} {w : World} {result : Result}
    (ok : (g.perform w).1 = .ok result) (new : result.reused = false) :
    ∃ repository paths report u v,
      Made g w.store repository paths report u v result (g.perform w).2.store := by
  unfold Generation.perform at ok ⊢
  rcases generate_ended g.remote g.settings g.random g.owner g.name g.force g.toStart
      { w with disk := g.disk } with ⟨-, refused, -, -⟩ | ⟨owner, name, howner, hname, hnames, ended⟩
  · cases ok.symm.trans refused
  · rw [ok] at ended
    generalize (generate g.remote g.settings g.random g.owner g.name g.force g.toStart
      { w with disk := g.disk }).2.disk = d at ended
    generalize (generate g.remote g.settings g.random g.owner g.name g.force g.toStart
      { w with disk := g.disk }).2.store = t at ended ⊢
    cases ended with
    | reused => cases new
    | made known _ listing answer facts saved =>
      obtain ⟨draft, known, put⟩ := refreshed_eq_ok.1 known
      rw [(ingestion_ok answer listing).1] at facts
      refine ⟨_, _, _, _, _, ⟨draft, ?_, put⟩, listing, answer, facts, saved⟩
      simp only [howner, hname, requested, hnames, Bool.false_eq_true, if_false, known]

namespace Made

variable {g : Generation} {s u v t : Store} {repository : Repository} {paths : List String}
variable {report : Report} {result : Result}

/-- Files are gone through in a store that its own statements have made, and so they leave one. -/
theorem consistent (h : Made g s repository paths report u v result t) (hs : s.Consistent) :
    u.Consistent ∧ v.Consistent ∧ (pruned repository.graphKey paths v).Consistent ∧ t.Consistent := by
  obtain ⟨_, -, put⟩ := h.known
  obtain ⟨_, _, _, -, -, saved, -⟩ := exported_eq_ok.1 h.saved
  obtain ⟨hu, -⟩ := hs.putRepository put
  obtain ⟨hv, -⟩ := h.facts.run.consistent hu
  obtain ⟨hp, -⟩ := (pruned_run repository.graphKey paths v).consistent hv
  exact ⟨hu, hv, hp, (hp.saveSnapshot saved).1⟩

theorem forest (h : Made g s repository paths report u v result t) (hs : s.Consistent)
    (hf : s.Forest) : u.Forest ∧ (pruned repository.graphKey paths v).Forest ∧ t.Forest := by
  obtain ⟨_, -, put⟩ := h.known
  obtain ⟨_, _, _, -, -, saved, -⟩ := exported_eq_ok.1 h.saved
  obtain ⟨hu, -⟩ := hs.putRepository put
  have run : Store.FactRun repository.graphKey u (pruned repository.graphKey paths v) :=
    h.facts.run.trans (pruned_run repository.graphKey paths v)
  have hfu := hf.putRepository put
  have hfp := run.forest hu hfu
  exact ⟨hfu, hfp, hfp.saveSnapshot saved⟩

/-- The repository is the one that is asked for, and it is in the store. -/
theorem asks (h : Made g s repository paths report u v result t) (hs : s.Consistent) :
    g.AsksFor repository.owner repository.name ∧
      repository ∈ (pruned repository.graphKey paths v).repositories.rows := by
  obtain ⟨draft, known, put⟩ := h.known
  obtain ⟨howner, hname, -, -, mem, -⟩ := Store.putRepository_documents hs put
  have run : Store.FactRun repository.graphKey u (pruned repository.graphKey paths v) :=
    h.facts.run.trans (pruned_run repository.graphKey paths v)
  rw [run.repositories]
  exact ⟨⟨draft, known, howner, hname⟩, mem⟩

/-- Saving the document changes no other table. -/
theorem frame (h : Made g s repository paths report u v result t) :
    t = { pruned repository.graphKey paths v with snapshots := t.snapshots } := by
  obtain ⟨_, _, _, -, -, saved, -⟩ := exported_eq_ok.1 h.saved
  obtain ⟨_, _, -, -, -, -, -, e⟩ := Store.saveSnapshot_ok saved
  rw [e]

theorem report_eq (h : Made g s repository paths report u v result t) :
    result.report = some report := by
  obtain ⟨_, _, _, -, -, -, rfl⟩ := exported_eq_ok.1 h.saved
  rfl

/-- Each listed path has an outcome, and each outcome is that of a listed path. -/
theorem outcomes (h : Made g s repository paths report u v result t) :
    report.outcomes.map (·.path) = paths ∧
      ∀ o ∈ report.outcomes,
        resultOf g.settings.language (g.remote.text repository.owner repository.name) o.path =
          .ok o := by
  have results := (ingestion_ok h.answer h.listing).2
  have own : ∀ o ∈ report.outcomes,
      resultOf g.settings.language (g.remote.text repository.owner repository.name) o.path =
        .ok o := by
    intro o ho
    have hmem : (.ok o : Except RemoteFault Outcome) ∈ report.outcomes.map .ok :=
      List.mem_map_of_mem ho
    rw [← results] at hmem
    obtain ⟨path, -, hpath⟩ := List.mem_map.1 hmem
    rw [(outcome_of_resultOf hpath).1, hpath]
  exact ⟨map_of_map_ok results fun path o hpath => (outcome_of_resultOf hpath).1, own⟩

/-- What is stored at each path, after everything: what has been fetched for a listed path or else what
was there, and nothing at a path that is not listed. Other repositories have what they had. -/
theorem stored?_eq (h : Made g s repository paths report u v result t) (hs : s.Consistent)
    (key path : String) :
    t.stored? key path =
      if key = repository.graphKey then
        if path ∈ paths then
          (fetched? g.settings.language (g.remote.text repository.owner repository.name) path).or
            (s.stored? key path)
        else none
      else s.stored? key path := by
  obtain ⟨_, -, put⟩ := h.known
  obtain ⟨_, _, _, -, -, saved, -⟩ := exported_eq_ok.1 h.saved
  obtain ⟨hu, hv, hp, -⟩ := h.consistent hs
  obtain ⟨hkept, -⟩ := hv.deleteFilesExcept repository.graphKey paths
  rw [Store.saveSnapshot_stored hp saved, pruned, Store.deleteEmptyNamespaces_stored hkept,
    Store.deleteFilesExcept_stored hv, h.facts.stored?_eq hu, Store.putRepository_stored hs put]
  by_cases own : key = repository.graphKey
  · by_cases hpath : path ∈ paths
    · simp only [own, hpath, not_true_eq_false, and_false, if_false, and_self, if_true]
    · simp only [own, hpath, not_false_eq_true, and_self, if_true, if_false]
  · simp only [own, false_and, if_false]

/-- No namespace of the repository is empty. -/
theorem emptyNamespaces (h : Made g s repository paths report u v result t) :
    t.emptyNamespaces repository.graphKey = [] := by
  rw [h.frame]
  exact Store.emptyNamespaces_deleteEmptyNamespaces _ _

/-- There are contents that are stored, and the text is their document. -/
theorem text (h : Made g s repository paths report u v result t) (hs : s.Consistent)
    (hf : s.Forest) :
    t.namesIn repository.graphKey ≠ [] ∧
      result.text = documentText g.settings.order (headingOf repository)
        (t.namesIn repository.graphKey) (t.contents repository.graphKey) := by
  obtain ⟨tree, _, _, htree, -, -, hresult⟩ := exported_eq_ok.1 h.saved
  obtain ⟨-, -, hp, -⟩ := h.consistent hs
  obtain ⟨-, hfp, -⟩ := h.forest hs hf
  have names : t.namesIn repository.graphKey =
      (pruned repository.graphKey paths v).namesIn repository.graphKey := by rw [h.frame]; rfl
  have contents : t.contents repository.graphKey =
      (pruned repository.graphKey paths v).contents repository.graphKey := by rw [h.frame]; rfl
  rw [names, contents]
  exact (exists_treeOf_iff hp hfp _ _).1 ⟨tree, htree, by rw [hresult]⟩

/-- The namespaces are those of the contents, with the chains above them. -/
theorem mem_namesIn (h : Made g s repository paths report u v result t) (hs : s.Consistent)
    (hf : s.Forest) (name : String) :
    name ∈ t.namesIn repository.graphKey ↔
      ∃ c ∈ t.contents repository.graphKey, name ∈ dottedPrefixes c.namespaceName := by
  obtain ⟨-, -, -, ht⟩ := h.consistent hs
  obtain ⟨-, -, hft⟩ := h.forest hs hf
  exact hft.mem_namesIn_iff ht h.emptyNamespaces name

end Made

end CodeOutline.Service
