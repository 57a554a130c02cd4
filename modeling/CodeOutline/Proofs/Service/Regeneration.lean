import CodeOutline.Proofs.Ingest.Contents
import CodeOutline.Proofs.Service.Made

/-!
# Regenerated reports

A generation that goes through all listed files leaves what these files say in the store, and nothing
else, whatever the store was before: what was stored for their paths is replaced, what was stored for
others is removed, and so are the namespaces that are no longer needed. Only the order of the rows still
tells of the past, and a report that is sorted by name does not show it.
-/

namespace CodeOutline.Service

open CodeOutline.Graph CodeOutline.Ingest CodeOutline.Remote CodeOutline.Report CodeOutline.Text

/-! ## The store -/

section Store

variable {language : Language} {key : String} {fetch : String → Call String}
variable {files : List (String × String)} {paths : List String} {u v : Store}

theorem storable?_of_served (serves : ∀ f ∈ files, (fetch f.1).result = .ok f.2)
    {f : String × String} (hf : f ∈ files) :
    storable? language fetch f.1 = (readingOf language f.2).map (f.2, ·) := by
  simp only [storable?, serves f hf]

/-- What there is to be stored is what the files say, whatever the order. -/
theorem mem_parsed_iff (serves : ∀ f ∈ files, (fetch f.1).result = .ok f.2)
    (hpaths : ∀ path, path ∈ paths ↔ path ∈ files.map (·.1)) (c : FileContent) :
    c ∈ parsed language fetch paths ↔ c ∈ contentsOf language files := by
  rw [← @parsed_of_served language _ _ serves]
  unfold parsed
  simp only [List.mem_filterMap, hpaths]

/-- A path has one content among those to be stored. -/
theorem parsed_path_inj {c d : FileContent} (hc : c ∈ parsed language fetch paths)
    (hd : d ∈ parsed language fetch paths) (h : c.path = d.path) : c = d := by
  obtain ⟨p, -, hp⟩ := List.mem_filterMap.1 hc
  obtain ⟨q, -, hq⟩ := List.mem_filterMap.1 hd
  obtain ⟨x, hx, rfl⟩ := Option.map_eq_some_iff.1 hp
  obtain ⟨y, hy, rfl⟩ := Option.map_eq_some_iff.1 hq
  obtain rfl : p = q := h
  rw [Option.some.inj (hx.symm.trans hy)]

/-- Every path that is served has a content. -/
theorem mem_parsed_paths (serves : ∀ f ∈ files, (fetch f.1).result = .ok f.2)
    (readable : ∀ f ∈ files, (readingOf language f.2).isSome)
    (hpaths : ∀ path, path ∈ paths ↔ path ∈ files.map (·.1)) (path : String) :
    path ∈ (parsed language fetch paths).map (·.path) ↔ path ∈ paths := by
  rw [parsed_paths, List.mem_filter, and_iff_left_iff_imp]
  intro hmem
  obtain ⟨f, hf, rfl⟩ := List.mem_map.1 ((hpaths path).1 hmem)
  rw [storable?_of_served serves hf, Option.isSome_map]
  exact readable f hf

theorem nodup_contentsOf (serves : ∀ f ∈ files, (fetch f.1).result = .ok f.2)
    (distinct : (files.map (·.1)).Nodup) : (contentsOf language files).Nodup := by
  rw [← parsed_of_served serves]
  exact (nodup_parsed_paths distinct).of_map _

/-- The contents of the listed files are left, and no others. -/
theorem mem_pruned_contents (serves : ∀ f ∈ files, (fetch f.1).result = .ok f.2)
    (readable : ∀ f ∈ files, (readingOf language f.2).isSome)
    (hpaths : ∀ path, path ∈ paths ↔ path ∈ files.map (·.1))
    (hu : u.Consistent) (hf : u.Forest) (ingested : Ingested language key fetch paths u v)
    (c : FileContent) :
    c ∈ (pruned key paths v).contents key ↔ c ∈ contentsOf language files := by
  obtain ⟨hv, -⟩ := ingested.run.consistent hu
  obtain ⟨hkept, -⟩ := hv.deleteFilesExcept key paths
  have listed := mem_parsed_paths serves readable hpaths
  rw [pruned, Store.deleteEmptyNamespaces_contents hkept, Store.deleteFilesExcept_contents hv,
    (ingested.contents hu hf).1, List.mem_filter, List.contains_iff_mem,
    mem_foldl_putContent fun c hc d hd => parsed_path_inj hc hd, listed,
    ← mem_parsed_iff serves hpaths]
  constructor
  · rintro ⟨hc | ⟨-, hno⟩, hpath⟩
    · exact hc
    · exact absurd hpath hno
  · exact fun hc => ⟨.inl hc, (listed c.path).1 (List.mem_map_of_mem hc)⟩

theorem pruned_of_served (serves : ∀ f ∈ files, (fetch f.1).result = .ok f.2)
    (readable : ∀ f ∈ files, (readingOf language f.2).isSome)
    (distinct : (files.map (·.1)).Nodup)
    (hpaths : ∀ path, path ∈ paths ↔ path ∈ files.map (·.1))
    (hu : u.Consistent) (hf : u.Forest) (ingested : Ingested language key fetch paths u v) :
    ((pruned key paths v).contents key).Perm (contentsOf language files) ∧
      ((pruned key paths v).namesIn key).Perm (chainsOf (contentsOf language files)) := by
  have run : Store.FactRun key u (pruned key paths v) := ingested.run.trans (pruned_run key paths v)
  obtain ⟨ht, -⟩ := run.consistent hu
  have hft := run.forest hu hf
  have contents := mem_pruned_contents serves readable hpaths hu hf ingested
  have nodup := (ht.nodup_paths key).of_map _
  refine ⟨(List.perm_ext_iff_of_nodup nodup (nodup_contentsOf serves distinct)).2 contents,
    (List.perm_ext_iff_of_nodup (Store.nodup_namesIn ht key) (nodup_eraseDups _)).2 fun name => ?_⟩
  rw [hft.mem_namesIn_iff ht (Store.emptyNamespaces_deleteEmptyNamespaces _ key), List.mem_eraseDups,
    List.mem_flatMap]
  simp only [contents]

/-- The report of the store, sorted by name, is computed from the files alone. -/
theorem treeOf_pruned (serves : ∀ f ∈ files, (fetch f.1).result = .ok f.2)
    (readable : ∀ f ∈ files, (readingOf language f.2).isSome)
    (distinct : (files.map (·.1)).Nodup)
    (hpaths : ∀ path, path ∈ paths ↔ path ∈ files.map (·.1))
    (hu : u.Consistent) (hf : u.Forest) {repository : Repository}
    (ingested : Ingested language repository.graphKey fetch paths u v) :
    (treeOf repository (pruned repository.graphKey paths v)).map (Tree.render .name) =
      if (contentsOf language files).isEmpty then .error (.notFound repository.name)
      else .ok (reportText language .name (headingOf repository) files) := by
  have run : Store.FactRun repository.graphKey u (pruned repository.graphKey paths v) :=
    ingested.run.trans (pruned_run repository.graphKey paths v)
  obtain ⟨ht, -⟩ := run.consistent hu
  obtain ⟨hcontents, hnames⟩ := pruned_of_served serves readable distinct hpaths hu hf ingested
  have empty : ((pruned repository.graphKey paths v).namesIn repository.graphKey).isEmpty =
      (contentsOf language files).isEmpty := by
    rw [Bool.eq_iff_iff, List.isEmpty_iff, List.isEmpty_iff, ← chainsOf_eq_nil]
    exact ⟨fun h => (h ▸ hnames).nil_eq.symm, fun h => (h ▸ hnames).eq_nil⟩
  unfold treeOf
  rw [assemble_render ht (run.forest hu hf), empty, documentText_name_perm hnames
    (Store.nodup_namesIn ht _) hcontents (ht.nodup_paths _)]
  rfl

/-- There is a report where there is a file. -/
theorem exists_treeOf_pruned (serves : ∀ f ∈ files, (fetch f.1).result = .ok f.2)
    (readable : ∀ f ∈ files, (readingOf language f.2).isSome)
    (distinct : (files.map (·.1)).Nodup)
    (hpaths : ∀ path, path ∈ paths ↔ path ∈ files.map (·.1))
    (hu : u.Consistent) (hf : u.Forest) {repository : Repository}
    (ingested : Ingested language repository.graphKey fetch paths u v)
    (nonempty : contentsOf language files ≠ []) :
    ∃ tree, treeOf repository (pruned repository.graphKey paths v) = .ok tree ∧
      tree.render .name = reportText language .name (headingOf repository) files := by
  have rendered := treeOf_pruned serves readable distinct hpaths hu hf ingested
  rw [if_neg (by simpa using nonempty)] at rendered
  cases htree : treeOf repository (pruned repository.graphKey paths v) with
  | error fault =>
    rw [htree] at rendered
    cases rendered
  | ok tree =>
    rw [htree] at rendered
    exact ⟨tree, rfl, Except.ok.inj rendered⟩

end Store

/-! ## Ingestions -/

section Ingestion

variable {remote : Remote} {settings : Settings} {owner name : String} {toStart : Option Nat}
variable {paths : List String} {report : Report}

/-- A report is accepted if all files are stored. -/
theorem accepted_of_stored (h : ∀ o ∈ report.outcomes, o.isStored)
    (hlength : report.outcomes.length = paths.length) :
    accepted settings paths report = .ok report := by
  have none (p : Outcome → Bool) (hp : ∀ o : Outcome, o.isStored → p o = false) :
      report.outcomes.countP p = 0 := by
    refine List.countP_eq_zero.2 fun o ho => ?_
    rw [hp o (h o ho)]
    exact Bool.false_ne_true
  have skipped : report.skipped = 0 := none _ fun o ho => by
    unfold Outcome.isStored at ho
    unfold Outcome.isSkipped
    split at ho
    · next e => rw [e]
    · cases ho
  have failed : report.failed = 0 := none _ fun o ho => by
    unfold Outcome.isStored at ho
    unfold Outcome.isFailed
    split at ho
    · next e => rw [e]
    · cases ho
  have stored : report.stored = paths.length := (List.countP_eq_length.2 h).trans hlength
  have something : (!paths.isEmpty && decide (report.stored = 0)) = false := by
    rw [stored]
    cases paths <;> simp
  unfold accepted
  rw [if_neg (by simp [skipped]), something, if_neg Bool.false_ne_true, if_neg (by simp [failed])]

/-- An ingestion that starts all files, and whose files can all be read, succeeds. -/
theorem exists_ingestion (hl : listed remote settings owner name = .ok paths)
    (hstarted : started toStart paths = paths)
    (hall : ∀ path ∈ paths, ∃ text, (remote.text owner name path).result = .ok text ∧
      (readingOf settings.language text).isSome) :
    ∃ report, ingestion remote settings owner name toStart = .ok report := by
  have stored : ∀ path ∈ paths, ∃ o, resultOf settings.language (remote.text owner name) path = .ok o ∧
      o.isStored := by
    intro path hpath
    obtain ⟨text, htext, hread⟩ := hall path hpath
    exact ⟨outcomeOf settings.language path text, by simp only [resultOf, htext],
      isStored_outcomeOf.trans hread⟩
  obtain ⟨outcomes, houtcomes, hstored⟩ := exists_map_ok stored
  have results : resultsOf settings.language (remote.text owner name) toStart paths =
      outcomes.map .ok := by
    rw [resultsOf, hstarted, List.drop_length, List.map_nil, List.append_nil, houtcomes]
  have hlength : outcomes.length = paths.length := by
    have := congrArg List.length houtcomes
    rwa [List.length_map, List.length_map, eq_comm] at this
  unfold ingestion
  rw [hl]
  dsimp only
  rw [mapM_eq_ok.2 ((List.map_id _).trans results)]
  exact ⟨_, accepted_of_stored hstored hlength⟩

end Ingestion

/-! ## Generations -/

/-- The remote of a generation names the repository of a heading, and the files are those that it lists
and the language handles, each a path and a text that can be read. Their order is left open. -/
structure Generation.Serves (g : Generation) (heading : Heading) (files : List (String × String)) :
    Prop where
  known : ∃ draft, requested g.remote g.owner g.name = .ok draft ∧ draft.owner = some heading.owner ∧
    draft.name = some heading.name ∧ draft.description = heading.description
  listing : ∃ paths, listed g.remote g.settings heading.owner heading.name = .ok paths ∧
    ∀ path, path ∈ paths ↔ path ∈ files.map (·.1)
  distinct : (files.map (·.1)).Nodup
  texts : ∀ f ∈ files, (g.remote.text heading.owner heading.name f.1).result = .ok f.2
  readable : ∀ f ∈ files, (readingOf g.settings.language f.2).isSome

/-- The generation with another listing. -/
def Generation.relist (g : Generation) (entries : List Client.Entry) : Generation :=
  { g with remote := { g.remote with listing := fun _ _ _ => ⟨.ok entries, [], []⟩ } }

variable {g : Generation} {w : World} {draft : RepositoryDraft} {result : Result}

/-- What a generation that succeeds with a new document has gone through. -/
theorem perform_made (known : requested g.remote g.owner g.name = .ok draft)
    (ok : (g.perform w).1 = .ok result) (new : result.reused = false) :
    ∃ repository u paths report v tree, w.store.putRepository draft = .ok (repository, u) ∧
      listed g.remote g.settings repository.owner repository.name = .ok paths ∧
      ingestion g.remote g.settings repository.owner repository.name g.toStart = .ok report ∧
      Ingested g.settings.language repository.graphKey
        (g.remote.text repository.owner repository.name) paths u v ∧
      treeOf repository (pruned repository.graphKey paths v) = .ok tree ∧
      result.text = tree.render g.settings.order ∧
      outputOf g.settings g.random repository result.text report g.disk = .ok result.outputPath := by
  obtain ⟨repository, paths, report, u, v, made⟩ := exists_made ok new
  obtain ⟨d, hd, put⟩ := made.known
  cases hd.symm.trans known
  obtain ⟨tree, outputPath, snapshot, htree, houtput, -, rfl⟩ := exported_eq_ok.1 made.saved
  exact ⟨repository, u, paths, report, v, tree, put, made.listing, made.answer, made.facts, htree, rfl,
    houtput⟩

/-- The repository that is stored is the one of the heading. -/
theorem headingOf_put {s u : Store} {repository : Repository} {heading : Heading} (hs : s.Consistent)
    (put : s.putRepository draft = .ok (repository, u)) (howner : draft.owner = some heading.owner)
    (hname : draft.name = some heading.name) (hdescription : draft.description = heading.description) :
    heading = headingOf repository := by
  obtain ⟨ho, hn, -, hd, -⟩ := Store.putRepository_documents hs put
  obtain ⟨owner, name, description⟩ := heading
  rw [headingOf, Heading.mk.injEq]
  exact ⟨Option.some.inj (howner.symm.trans ho), Option.some.inj (hname.symm.trans hn),
    hdescription.symm.trans hd.symm⟩

/-- A generation of served files into any store: its report is computed from the files alone. -/
theorem Generation.Serves.text {heading : Heading} {files : List (String × String)}
    (h : g.Serves heading files) (order : g.settings.order = .name) (hs : w.store.Consistent)
    (hf : w.store.Forest) (ok : (g.perform w).1 = .ok result) (new : result.reused = false) :
    result.text = reportText g.settings.language .name heading files ∧
      contentsOf g.settings.language files ≠ [] := by
  obtain ⟨draft, known, howner, hname, hdescription⟩ := h.known
  obtain ⟨repository, u, paths, report, v, tree, put, hlisted, -, ingested, htree, htext, -⟩ :=
    perform_made known ok new
  obtain rfl := headingOf_put hs put howner hname hdescription
  obtain ⟨paths', hlisted', hpaths⟩ := h.listing
  cases hlisted'.symm.trans hlisted
  obtain ⟨hu, -⟩ := hs.putRepository put
  have rendered := treeOf_pruned h.texts h.readable h.distinct hpaths hu (hf.putRepository put) ingested
  rw [htree] at rendered
  split at rendered
  · cases rendered
  · next nonempty =>
    rw [htext, order]
    exact ⟨Except.ok.inj rendered, fun e => nonempty (by rw [e]; rfl)⟩

theorem freshSnapshot?_of_empty {repository : Repository} {u : Store}
    (put : ({} : Store).putRepository draft = .ok (repository, u)) :
    freshSnapshot? u repository = none := by
  rw [Store.putRepository_frame put]
  rfl

/-- A generation of served files into an empty store, where nothing but the files can fail. -/
theorem Generation.Serves.makes {heading : Heading} {files : List (String × String)}
    (h : g.Serves heading files) (order : g.settings.order = .name)
    (nonempty : contentsOf g.settings.language files ≠ [])
    (branch : ∀ draft, requested g.remote g.owner g.name = .ok draft → draft.defaultBranch.isSome)
    (enough : ∀ paths, listed g.remote g.settings heading.owner heading.name = .ok paths →
      started g.toStart paths = paths)
    (output : ∃ repository report outputPath, headingOf repository = heading ∧
      outputOf g.settings g.random repository
        (reportText g.settings.language .name heading files) report g.disk = .ok outputPath) :
    ∃ result, (g.perform {}).1 = .ok result ∧ result.reused = false ∧
      result.text = reportText g.settings.language .name heading files := by
  obtain ⟨draft, known, howner, hname, hdescription⟩ := h.known
  obtain ⟨paths, hlisted, hpaths⟩ := h.listing
  obtain ⟨owner, name, hgo, hgn, hnames, hidentity⟩ := exists_of_requested known
  obtain ⟨b, hb⟩ := Option.isSome_iff_exists.1 (branch draft known)
  obtain ⟨repository, u, put⟩ := Store.exists_putRepository howner hname hb {}
  obtain rfl := headingOf_put Store.consistent_empty put howner hname hdescription
  obtain ⟨report, hreport⟩ := exists_ingestion hlisted (enough paths hlisted)
    fun path hpath => by
      obtain ⟨f, hf, rfl⟩ := List.mem_map.1 ((hpaths path).1 hpath)
      exact ⟨f.2, h.texts f hf, h.readable f hf⟩
  obtain ⟨paths', v, hlisted', ingested, makes⟩ := generateNamed_makes g.random g.force
    { disk := g.disk } hidentity put (freshSnapshot?_of_empty put) hreport
  cases hlisted'.symm.trans hlisted
  rw [enough paths hlisted] at ingested
  obtain ⟨hu, -⟩ := Store.consistent_empty.putRepository put
  have hfu := Store.forest_empty.putRepository put
  have run : Store.FactRun repository.graphKey u (pruned repository.graphKey paths v) :=
    ingested.run.trans (pruned_run _ _ _)
  obtain ⟨tree, htree, htext⟩ :=
    exists_treeOf_pruned h.texts h.readable h.distinct hpaths hu hfu ingested nonempty
  rw [← order] at htext
  obtain ⟨r, report', outputPath, hr, houtput⟩ := output
  obtain ⟨hro, hrn, -⟩ := Heading.mk.inj hr
  rw [outputOf_congr hro hrn, ← order, ← htext] at houtput
  obtain ⟨ht, -⟩ := run.consistent hu
  have hmem : repository ∈ (pruned repository.graphKey paths v).repositories.rows := by
    rw [run.repositories]
    exact (Store.putRepository_documents Store.consistent_empty put).2.2.2.2.1
  obtain ⟨result, hrun, new, htext'⟩ := makes tree outputPath htree
    (outputOf_report houtput report) (exists_saved ht hmem htree _ _)
  obtain ⟨same, -⟩ := generate_named g.remote g.settings g.random g.force g.toStart
    { disk := g.disk } hnames
  refine ⟨result, ?_, new, (htext'.trans htext).trans (by rw [order])⟩
  unfold Generation.perform
  rw [hgo, hgn]
  exact same.trans hrun

/-! ## Listings -/

theorem exists_map_ok_of_perm {ε α : Type} {m : List (Except ε α)} {l : List α}
    (h : m.Perm (l.map .ok)) : ∃ l' : List α, m = l'.map .ok ∧ l'.Perm l := by
  have all : ∀ x ∈ m, ∃ a, id x = .ok a ∧ True := by
    intro x hx
    obtain ⟨a, -, rfl⟩ := List.mem_map.1 (h.mem_iff.1 hx)
    exact ⟨a, rfl, trivial⟩
  obtain ⟨l', e, -⟩ := exists_map_ok all
  rw [List.map_id] at e
  have answers (l : List α) : (l.map (.ok : α → Except ε α)).filterMap Except.toOption = l := by
    rw [List.filterMap_map]
    exact List.filterMap_some
  refine ⟨l', e, ?_⟩
  rw [← answers l', ← e, ← answers l]
  exact h.filterMap _

/-- Another order of listing is another order of paths. -/
theorem handledPaths_perm {language : Language} {entries entries' : List Client.Entry}
    {paths : List String} (perm : entries'.Perm entries)
    (h : handledPaths language entries = .ok paths) :
    ∃ paths', handledPaths language entries' = .ok paths' ∧ paths'.Perm paths := by
  unfold handledPaths at h ⊢
  simp only [andThen_eq_ok, mapM_eq_ok] at h ⊢
  obtain ⟨all, hall, h⟩ := h
  cases h
  obtain ⟨all', hall', hperm⟩ := exists_map_ok_of_perm (hall ▸ (perm.filter _).map _)
  exact ⟨_, ⟨all', hall', rfl⟩, hperm.filter _⟩

theorem started_of_length_le {toStart : Option Nat} {paths paths' : List String}
    (h : started toStart paths = paths) (hlength : paths'.length ≤ paths.length) :
    started toStart paths' = paths' := by
  cases toStart with
  | none => rfl
  | some n =>
    have hn : paths.length ≤ n := calc
      paths.length = (paths.take n).length := (congrArg List.length h).symm
      _ ≤ n := List.length_take_le n paths
    exact List.take_of_length_le (hlength.trans hn)

/-- The files are served whatever the order in which they are listed. -/
theorem Generation.Serves.relist {heading : Heading} {files : List (String × String)}
    (h : g.Serves heading files) {entries entries' : List Client.Entry}
    (answer : (g.remote.listing heading.owner heading.name g.settings.basePath).result = .ok entries)
    (perm : entries'.Perm entries) :
    (g.relist entries').Serves heading files ∧
      ∀ paths paths', listed g.remote g.settings heading.owner heading.name = .ok paths →
        listed (g.relist entries').remote g.settings heading.owner heading.name = .ok paths' →
        paths'.length = paths.length := by
  obtain ⟨paths, hlisted, hpaths⟩ := h.listing
  have hhandled : handledPaths g.settings.language entries = .ok paths := by
    unfold listed answerOf at hlisted
    rw [answer] at hlisted
    cases hhandled : handledPaths g.settings.language entries with
    | error fault =>
      simp only [hhandled] at hlisted
      cases hlisted
    | ok all =>
      simp only [hhandled] at hlisted
      cases hlisted
      rfl
  obtain ⟨paths', hhandled', hperm⟩ := handledPaths_perm perm hhandled
  have hlisted' : listed (g.relist entries').remote g.settings heading.owner heading.name =
      .ok paths' := by
    simp only [listed, answerOf, Generation.relist, hhandled', Except.mapError]
  refine ⟨⟨h.known, ⟨paths', hlisted', fun path => ?_⟩, h.distinct, h.texts, h.readable⟩,
    fun p p' hp hp' => ?_⟩
  · rw [hperm.mem_iff, hpaths]
  · cases hp.symm.trans hlisted
    cases hp'.symm.trans hlisted'
    exact hperm.length_eq

/-! ## Histories -/

/-- A generation that has succeeded with served files succeeds with them in an empty store, too, and so
does one that is otherwise the same and lists as many files. -/
theorem Generation.Serves.makes_again {heading : Heading} {files : List (String × String)}
    (h : g.Serves heading files) (order : g.settings.order = .name) (hs : w.store.Consistent)
    (hf : w.store.Forest) (ok : (g.perform w).1 = .ok result) (new : result.reused = false)
    {g' : Generation} (h' : g'.Serves heading files) (settings : g'.settings = g.settings)
    (random : g'.random = g.random) (disk : g'.disk = g.disk) (toStart : g'.toStart = g.toStart)
    (identity : requested g'.remote g'.owner g'.name = requested g.remote g.owner g.name)
    (lengths : ∀ paths paths', listed g.remote g.settings heading.owner heading.name = .ok paths →
      listed g'.remote g.settings heading.owner heading.name = .ok paths' →
      paths'.length = paths.length) :
    ∃ first, (g'.perform {}).1 = .ok first ∧ first.reused = false ∧ first.text = result.text := by
  obtain ⟨htext, nonempty⟩ := h.text order hs hf ok new
  obtain ⟨draft, known, howner, hname, hdescription⟩ := h.known
  obtain ⟨repository, u, paths, report, v, tree, put, hlisted, hreport, -, -, -, houtput⟩ :=
    perform_made known ok new
  obtain rfl := headingOf_put hs put howner hname hdescription
  rw [htext, ← settings]
  refine h'.makes (settings ▸ order) (settings ▸ nonempty) (fun d hd => ?_)
    (fun paths' hlisted' => ?_) ⟨repository, report, result.outputPath, rfl, ?_⟩
  · obtain ⟨_, _, branch, -, -, hb, -⟩ := Store.putRepository_ok put
    have hdraft : d = draft := Except.ok.inj ((hd.symm.trans identity).trans known)
    rw [hdraft, hb]
    rfl
  · rw [settings] at hlisted'
    rw [toStart]
    exact started_of_length_le (ingestion_ok hreport hlisted).1
      (lengths paths paths' hlisted hlisted').le
  · rw [settings, random, disk, ← htext]
    exact houtput

/-- The report of a generation after any others, sorted by name, is computed from the heading of the
repository and the listed files alone. It is the one that comes from an empty database, and no other
order of listing makes another one, in an empty database or after any generations. -/
theorem history_report (generations : List Generation) {heading : Heading}
    {files : List (String × String)} (serves : g.Serves heading files)
    (order : g.settings.order = .name) (ok : (g.perform (history generations).world).1 = .ok result)
    (new : result.reused = false) :
    result.text = reportText g.settings.language .name heading files ∧
      (∃ first, (g.perform {}).1 = .ok first ∧ first.reused = false ∧ first.text = result.text) ∧
      ∀ entries entries',
        (g.remote.listing heading.owner heading.name g.settings.basePath).result = .ok entries →
        entries'.Perm entries →
        (∃ first, ((g.relist entries').perform {}).1 = .ok first ∧ first.reused = false ∧
            first.text = result.text) ∧
          ∀ others other, ((g.relist entries').perform (history others).world).1 = .ok other →
            other.reused = false → other.text = result.text := by
  have hs := (history_recorded generations).consistent
  have hf := history_forest generations
  obtain ⟨htext, -⟩ := serves.text order hs hf ok new
  refine ⟨htext, ?_, fun entries entries' answer perm => ?_⟩
  · refine serves.makes_again order hs hf ok new serves rfl rfl rfl rfl rfl fun _ _ hp hp' => ?_
    cases hp.symm.trans hp'
    rfl
  · obtain ⟨serves', lengths⟩ := serves.relist answer perm
    refine ⟨serves.makes_again order hs hf ok new serves' rfl rfl rfl rfl rfl lengths,
      fun others other ok' new' => ?_⟩
    obtain ⟨htext', -⟩ := serves'.text order (history_recorded others).consistent
      (history_forest others) ok' new'
    exact htext'.trans htext.symm

/-- A file is moved to another namespace, and another one goes. -/
theorem history_report_of_second_commit :
    let first := Generation.ofFiles "c0ffee" [("A.java", "class A {}"), ("B.java", "class B {}")]
    let files := [("B.java", "package a.b;\nclass B { int x; }")]
    let g := Generation.ofFiles "decade" files
    ∃ result, (g.perform (history [first]).world).1 = .ok result ∧ result.reused = false ∧
      result.text = reportText .java .name ⟨"acme", "tool", some "A tool"⟩ files := by
  intro first files g
  have serves : g.Serves ⟨"acme", "tool", some "A tool"⟩ files := {
    known := ⟨_, rfl, rfl, rfl, rfl⟩
    listing := ⟨["B.java"], rfl, fun _ => Iff.rfl⟩
    distinct := by decide
    texts := by decide
    readable := by decide +kernel }
  have makes : ((g.perform (history [first]).world).1.toOption.map (·.reused)) = some false := by
    decide +kernel
  cases ok : (g.perform (history [first]).world).1 with
  | error fault =>
    rw [ok] at makes
    cases makes
  | ok result =>
    rw [ok] at makes
    have new : result.reused = false := Option.some.inj makes
    exact ⟨result, rfl, new, (history_report [first] serves rfl ok new).1⟩

end CodeOutline.Service
