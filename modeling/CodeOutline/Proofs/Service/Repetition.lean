import CodeOutline.Proofs.Service.Made

/-!
# Generations that are repeated

A generation that has made a new document is performed once more, with the same remote and the same
settings. Without force it returns the document that it has saved, and asks for nothing but what is
known about the repository. With force it goes through all files again, and finds everything at its
place: each file that can be read has its facts already, each file that fails fails in the same way, and
nothing is left to be removed. So it makes the same document, and all that is new is its snapshot.
-/

namespace CodeOutline.Service

open CodeOutline.Files CodeOutline.Graph CodeOutline.Ingest CodeOutline.Remote CodeOutline.Report
open CodeOutline.Text

/-- The generation once more, on the disk that there is then. -/
def Generation.again (g : Generation) (force : Bool) (random : String) (disk : Disk) : Generation :=
  { g with force, random, disk }

/-- The text can be written to the disk as the report of a repository, if it is to be written at all. -/
def Writable (settings : Settings) (owner name text random : String) (disk : Disk) : Prop :=
  ∀ directory ∈ settings.outputDirectory, ∃ path place,
    reportPath directory owner name = .ok path ∧ disk.outputPlace path.text none = .ok place ∧
      (disk.write ⟨"/", place⟩ text random).1 = .ok ()

theorem writable_iff {settings : Settings} {text random : String} {disk : Disk}
    {repository : Repository} {report : Report} :
    Writable settings repository.owner repository.name text random disk ↔
      ∃ outputPath, outputOf settings random repository text report disk = .ok outputPath := by
  simp only [outputOf_eq_ok, writeReport_eq_ok]
  unfold Writable
  cases settings.outputDirectory with
  | none => exact ⟨fun _ => ⟨none, .inl ⟨rfl, rfl⟩⟩, fun _ => nofun⟩
  | some directory =>
    constructor
    · intro h
      obtain ⟨path, place, hpath, hplace, hwrite⟩ := h directory rfl
      exact ⟨_, .inr ⟨directory, _, rfl, rfl, path, place, hpath, hplace, hwrite, rfl⟩⟩
    · rintro ⟨_, ⟨no, -⟩ | ⟨_, _, e, -, path, place, hpath, hplace, hwrite, -⟩⟩ _ hd
      · cases no
      · cases e
        cases hd
        exact ⟨path, place, hpath, hplace, hwrite⟩

/-- The row of a repository that is written once more. -/
def rewritten (r : Repository) : Repository := { r with version := r.version + 1 }

/-- The store `t` has the namespaces, the files and the types and members of `s`, under the same numbers
of namespaces and files, and one document more. -/
structure AddsDocument (s t : Store) (saved : Snapshot) : Prop where
  namespaces : t.namespaces = s.namespaces
  files : t.files.rows.map SourceFile.core = s.files.rows.map SourceFile.core
  facts : ∀ i, t.factsIn i = s.factsIn i
  snapshots : t.snapshots.rows =
    s.snapshots.rows.map (Store.demotedBy saved.repositoryId) ++ [saved]

theorem addsDocument_of_saved {s u v t : Store} {draft : RepositoryDraft} {row : Repository}
    {document : SnapshotDraft} {saved : Snapshot} (put : s.putRepository draft = .ok (row, u))
    (same : u.SameFacts v) (save : v.saveSnapshot document = .ok (saved, t)) :
    AddsDocument s t saved := by
  have frame := Store.putRepository_frame put
  obtain ⟨_, _, -, -, -, -, hsaved, rfl⟩ := Store.saveSnapshot_ok save
  constructor
  · rw [frame] at same
    exact same.namespaces
  · rw [frame] at same
    exact same.files
  · rw [frame] at same
    exact same.facts
  · rw [frame] at same
    rw [hsaved, ← same.snapshots]
    rfl

namespace Made

variable {g : Generation} {s u v t : Store} {repository : Repository} {paths : List String}
variable {report : Report} {result : Result}

/-! ## The repository -/

/-- What the remote knows about the repository is what is stored about it. -/
theorem refreshed_again (h : Made g s repository paths report u v result t) (hs : s.Consistent) :
    ∃ owner name t', g.owner = some owner ∧ g.name = some name ∧
      (isBlankText owner || isBlankText name) = false ∧
      refreshed g.remote owner name t = .ok (rewritten repository, t') := by
  obtain ⟨draft, known, put⟩ := h.known
  obtain ⟨owner, name, howner, hname, usable, known⟩ := exists_of_requested known
  obtain ⟨-, -, -, ht⟩ := h.consistent hs
  have mem : repository ∈ t.repositories.rows := by
    rw [h.frame]
    exact (h.asks hs).2
  obtain ⟨t', put'⟩ := Store.putRepository_twice put ht mem
  exact ⟨owner, name, t', howner, hname, usable, refreshed_eq_ok.2 ⟨draft, known, put'⟩⟩

/-! ## The saved document -/

/-- The document that has been saved is the current one, and it is of the latest commit. -/
theorem fresh (h : Made g s repository paths report u v result t) :
    freshSnapshot? t repository = some result.snapshot ∧ result.snapshot.payload = result.text := by
  obtain ⟨_, _, _, -, -, saved, rfl⟩ := exported_eq_ok.1 h.saved
  obtain ⟨current, -⟩ := Store.saveSnapshot_own saved
  obtain ⟨_, _, hid, hcommit, -, -, hrow, -⟩ := Store.saveSnapshot_ok saved
  cases hid
  cases hcommit
  rw [hrow] at current ⊢
  refine ⟨?_, rfl⟩
  unfold freshSnapshot?
  rw [current]
  exact Option.filter_some_pos (decide_eq_true rfl)

/-- Without force the saved document is returned, with no requests but those for the metadata, and no
other table changes than that of the repositories. -/
theorem reused_again {w : World} (h : Made g s repository paths report u v result w.store)
    (hs : s.Consistent) (random : String) (disk : Disk) :
    ∃ again w' owner name, (g.again false random disk).perform w = (.ok again, w') ∧
      g.owner = some owner ∧ g.name = some name ∧ again.reused = true ∧ again.text = result.text ∧
      again.snapshot = result.snapshot ∧
      w'.requests = w.requests ++ (g.remote.metadata owner name).requests ∧
      w'.store = { w.store with repositories := w'.store.repositories } := by
  obtain ⟨owner, name, t', howner, hname, usable, known⟩ := h.refreshed_again hs
  obtain ⟨draft, -, put⟩ := refreshed_eq_ok.1 known
  obtain ⟨current, payload⟩ := h.fresh
  have frame := Store.putRepository_frame put
  have fresh : freshSnapshot? t' (rewritten repository) = some result.snapshot := by
    rw [frame]
    exact current
  obtain ⟨w', hrun, hstore, hrequests⟩ :
      ∃ w', (generateNamed g.remote g.settings random owner name false g.toStart).run
        { w with disk } = (.ok (reusedResult result.snapshot), w') ∧ w'.store = t' ∧
        w'.requests = w.requests ++ (g.remote.metadata owner name).requests :=
    generateNamed_reuses known fresh
  obtain ⟨answer, store, requests, -⟩ := generate_named g.remote g.settings random false g.toStart
    { w with disk } usable
  rw [hrun] at answer store requests
  rw [← howner, ← hname] at answer store requests
  refine ⟨_, ((g.again false random disk).perform w).2, owner, name, Prod.ext answer rfl, howner,
    hname, rfl, payload, rfl, requests.trans hrequests, ?_⟩
  rw [show ((g.again false random disk).perform w).2.store = t' from store.trans hstore]
  exact frame

/-! ## The files -/

/-- Whatever can be stored for a listed path is stored for it. -/
theorem settled (h : Made g s repository paths report u v result t) (hs : s.Consistent) :
    ∀ path ∈ paths, ∀ e,
      fetched? g.settings.language (g.remote.text repository.owner repository.name) path = some e →
      t.stored? repository.graphKey path = some e := by
  intro path hpath e he
  rw [h.stored?_eq hs, if_pos rfl, if_pos hpath, he, Option.some_or]

/-- All files of the repository are listed. -/
theorem path_mem (h : Made g s repository paths report u v result t) (hs : s.Consistent)
    {f : SourceFile} (hf : f ∈ t.files.rows) (own : f.repository = repository.graphKey) :
    f.path ∈ paths := by
  by_contra unlisted
  obtain ⟨-, -, -, ht⟩ := h.consistent hs
  have stored := ht.stored?_eq hf
  rw [h.stored?_eq hs, own, if_pos rfl, if_neg unlisted] at stored
  cases stored

/-- Going through the files once more changes no facts, and leaves nothing to be removed. -/
theorem ingested_again (h : Made g s repository paths report u v result t) (hs : s.Consistent)
    (hf : s.Forest) {draft : RepositoryDraft} {row : Repository} {t' v' : Store}
    (put : t.putRepository draft = .ok (row, t'))
    (facts : Ingested g.settings.language repository.graphKey
      (g.remote.text repository.owner repository.name) paths t' v') :
    t'.SameFacts v' ∧ pruned repository.graphKey paths v' = v' := by
  obtain ⟨-, -, -, ht⟩ := h.consistent hs
  obtain ⟨-, -, hft⟩ := h.forest hs hf
  obtain ⟨ht', -⟩ := ht.putRepository put
  have frame := Store.putRepository_frame put
  have same : t'.SameFacts v' := facts.sameFacts ht' (hft.putRepository put) fun path hpath e he => by
    rw [Store.putRepository_stored ht put]
    exact h.settled hs path hpath e he
  have kept : (v'.deleteFilesExcept repository.graphKey paths).2 = v' := by
    refine Store.deleteFilesExcept_of_kept fun f hmem own => ?_
    obtain ⟨f', hmem', hkey, hpath⟩ := same.exists_file hmem
    rw [frame] at hmem'
    rw [← hpath]
    exact h.path_mem hs hmem' (hkey.trans own)
  have needed : v'.emptyNamespaces repository.graphKey = [] := by
    rw [same.emptyNamespaces, frame]
    exact h.emptyNamespaces
  refine ⟨same, ?_⟩
  rw [pruned, kept]
  exact Store.deleteEmptyNamespaces_of_nil needed

/-! ## The new document -/

/-- The same namespaces and contents make the same text. -/
theorem treeOf_again (h : Made g s repository paths report u v result t) (hs : s.Consistent)
    (hf : s.Forest) {draft : RepositoryDraft} {row : Repository} {t' v' : Store}
    (put : t.putRepository draft = .ok (row, t')) (same : t'.SameFacts v')
    (hv' : v'.Consistent) (hfv' : v'.Forest) :
    ∃ tree, treeOf (rewritten repository) v' = .ok tree ∧
      tree.render g.settings.order = result.text := by
  have frame := Store.putRepository_frame put
  have names : v'.namesIn repository.graphKey = t.namesIn repository.graphKey := by
    rw [same.namesIn, frame]
    rfl
  have contents : v'.contents repository.graphKey = t.contents repository.graphKey := by
    rw [same.contents, frame]
    rfl
  have text := h.text hs hf
  rw [← names, ← contents] at text
  exact (exists_treeOf_iff hv' hfv' _ _).2 text

/-- The report could be written when the document was made. -/
theorem writable (h : Made g s repository paths report u v result t) :
    Writable g.settings repository.owner repository.name result.text g.random g.disk := by
  obtain ⟨tree, outputPath, _, -, houtput, -, rfl⟩ := exported_eq_ok.1 h.saved
  exact writable_iff.2 ⟨outputPath, houtput⟩

/-- With force there is the same document once more, from the same facts. -/
theorem made_again {w : World} (h : Made g s repository paths report u v result w.store)
    (hs : s.Consistent) (hf : s.Forest) {random : String} {disk : Disk}
    (writable : Writable g.settings repository.owner repository.name result.text random disk) :
    ∃ again, ((g.again true random disk).perform w).1 = .ok again ∧ again.reused = false ∧
      again.text = result.text ∧ again.report = result.report ∧
      AddsDocument w.store ((g.again true random disk).perform w).2.store again.snapshot := by
  obtain ⟨owner, name, t', howner, hname, usable, known⟩ := h.refreshed_again hs
  obtain ⟨draft, -, put⟩ := refreshed_eq_ok.1 known
  obtain ⟨-, -, -, ht⟩ := h.consistent hs
  obtain ⟨-, -, hft⟩ := h.forest hs hf
  obtain ⟨ht', -⟩ := ht.putRepository put
  have key : (rewritten repository).graphKey = repository.graphKey := rfl
  have answer : ingestion g.remote g.settings (rewritten repository).owner (rewritten repository).name
      g.toStart = .ok report := h.answer
  obtain ⟨paths', v', listing, facts, exports⟩ :=
    generateNamed_exports (w := { w with disk }) known (.inl (Eq.refl true)) answer
  rw [key] at facts exports
  cases listing.symm.trans h.listing
  rw [(ingestion_ok h.answer h.listing).1] at facts
  obtain ⟨same, unpruned⟩ := h.ingested_again hs hf put facts
  obtain ⟨hv', -⟩ := facts.run.consistent ht'
  have hfv' := facts.run.forest ht' (hft.putRepository put)
  obtain ⟨tree, htree, htext⟩ := h.treeOf_again hs hf put same hv' hfv'
  rw [← htext] at writable
  obtain ⟨outputPath, houtput⟩ :
      ∃ outputPath, outputOf g.settings random repository (tree.render g.settings.order) report disk =
        .ok outputPath := writable_iff.1 writable
  have mem : rewritten repository ∈ v'.repositories.rows := by
    rw [same.repositories]
    exact (Store.putRepository_documents ht put).2.2.2.2.1
  obtain ⟨⟨snapshot, t''⟩, saved⟩ := exists_saved hv' mem htree (tree.render g.settings.order) outputPath
  rw [unpruned] at exports
  obtain ⟨hrun, hstore⟩ := exports _ t''
    (exported_eq_ok.2 ⟨tree, outputPath, snapshot, htree, houtput, saved, rfl⟩)
  obtain ⟨answer, store, -⟩ := generate_named g.remote g.settings random true g.toStart
    { w with disk } usable
  rw [hrun, ← howner, ← hname] at answer
  rw [hstore, ← howner, ← hname] at store
  refine ⟨_, answer, rfl, htext, h.report_eq.symm, ?_⟩
  rw [show ((g.again true random disk).perform w).2.store = t'' from store]
  exact addsDocument_of_saved put same saved

end Made

/-! ## Repetition -/

/-- A generation that has made a new document is performed once more. Without force it returns the saved
document, requests nothing but the metadata, and changes no table but that of the repositories. With
force, where the report can still be written as it could the first time, it answers with the same text
and the same outcomes; all namespaces, files, types and members stay, and there is one document more. -/
theorem history_repetition (generations : List Generation) {g : Generation} {result : Result}
    (ok : (g.perform (history generations).world).1 = .ok result) (new : result.reused = false) :
    let w := (g.perform (history generations).world).2
    (∀ random disk, ∃ again w' owner name, (g.again false random disk).perform w = (.ok again, w') ∧
        g.owner = some owner ∧ g.name = some name ∧ again.reused = true ∧
        again.text = result.text ∧ again.snapshot = result.snapshot ∧
        w'.requests = w.requests ++ (g.remote.metadata owner name).requests ∧
        w'.store = { w.store with repositories := w'.store.repositories }) ∧
      ∀ owner name, g.AsksFor owner name →
        Writable g.settings owner name result.text g.random g.disk ∧
          ∀ random disk, Writable g.settings owner name result.text random disk →
            ∃ again w', (g.again true random disk).perform w = (.ok again, w') ∧
              again.reused = false ∧ again.text = result.text ∧ again.report = result.report ∧
              AddsDocument w.store w'.store again.snapshot := by
  intro w
  have hs := (history_recorded generations).consistent
  have hf := history_forest generations
  obtain ⟨repository, paths, report, u, v, made⟩ := exists_made ok new
  refine ⟨made.reused_again hs, fun owner name asked => ?_⟩
  obtain ⟨⟨draft, known, howner, hname⟩, -⟩ := made.asks hs
  obtain ⟨draft', known', howner', hname'⟩ := asked
  cases known.symm.trans known'
  obtain rfl := Option.some.inj (howner.symm.trans howner')
  obtain rfl := Option.some.inj (hname.symm.trans hname')
  refine ⟨made.writable, fun random disk writable => ?_⟩
  obtain ⟨again, answer, forced, text, outcomes, adds⟩ := made.made_again hs hf writable
  exact ⟨again, _, Prod.ext answer rfl, forced, text, outcomes, adds⟩

/-- A file is moved to another namespace, and another one can no longer be read. The same comes of it
once more. -/
theorem history_repetition_of_failed_file :
    let first := Generation.ofFiles "c0ffee" [("A.java", "class A {}"), ("B.java", "class B {}")]
    let g := Generation.ofFiles "decade" [("A.java", "package a.b;\nclass A {}"), ("B.java", "class")]
    let w := (g.perform (history [first]).world).2
    ∃ result again forced, (g.perform (history [first]).world).1 = .ok result ∧
      ((g.again false "" {}).perform w).1 = .ok again ∧ again.reused = true ∧
      again.text = result.text ∧ ((g.again true "" {}).perform w).1 = .ok forced ∧
      forced.reused = false ∧ forced.text = result.text ∧
      AddsDocument w.store ((g.again true "" {}).perform w).2.store forced.snapshot := by
  intro first g w
  have renewed : ((g.perform (history [first]).world).1.toOption.map (·.reused)) = some false := by
    decide +kernel
  obtain ⟨result, ok, new⟩ := exists_new renewed
  obtain ⟨plain, force⟩ := history_repetition [first] ok new
  obtain ⟨again, w', owner, name, hagain, -, -, reused, text, -⟩ := plain "" {}
  have asked : g.AsksFor "acme" "tool" := ⟨_, rfl, rfl, rfl⟩
  obtain ⟨writable, force⟩ := force "acme" "tool" asked
  obtain ⟨forced, w'', hforced, made, text', -, adds⟩ := force "" {} writable
  have answer := congrArg Prod.fst hagain
  have answer' := congrArg Prod.fst hforced
  refine ⟨result, again, forced, ok, answer, reused, text, answer', made, text', ?_⟩
  rw [show ((g.again true "" {}).perform w).2 = w'' from congrArg Prod.snd hforced]
  exact adds

end CodeOutline.Service
