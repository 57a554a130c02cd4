import CodeOutline.Proofs.Service.Export

/-!
# What a generation comes to

A generation writes what is known about the repository, then the facts of its files, then the
document. `Ended` tells apart how far it comes, with what each stage has answered, and
`generateNamed_ended` is the only place where the stages are put together.

`Generated` has what is left of it for the store: a failing generation may leave the repository and
facts behind, a reused document is that of the store, and a new one is saved with the text and the place
that the result names. `generateNamed_exports` says when there is a new one.
-/

namespace CodeOutline.Service

open CodeOutline.Files CodeOutline.Graph CodeOutline.Ingest CodeOutline.Remote CodeOutline.Text

/-- What is to be stored about the repository that a generation is asked for. -/
def requested (remote : Remote) : Option String → Option String → Except Fault RepositoryDraft
  | some owner, some name =>
    if isBlankText owner || isBlankText name then .error .blankName else identityOf remote owner name
  | _, _ => .error .blankName

variable {remote : Remote}

/-- What is asked for is known by usable names. -/
theorem exists_of_requested {owner name : Option String} {draft : RepositoryDraft}
    (h : requested remote owner name = .ok draft) :
    ∃ o n, owner = some o ∧ name = some n ∧ (isBlankText o || isBlankText n) = false ∧
      identityOf remote o n = .ok draft := by
  cases owner with
  | none => cases h
  | some o =>
    cases name with
    | none => cases h
    | some n =>
      unfold requested at h
      cases hnames : isBlankText o || isBlankText n with
      | true =>
        simp only [hnames, if_true] at h
        cases h
      | false =>
        simp only [hnames, Bool.false_eq_true, if_false] at h
        exact ⟨o, n, rfl, rfl, hnames, h⟩

/-- With the hosting service, what is stored is stored under the names that are asked for. -/
theorem requested_ofClient {c : Client} {net : Network} {owner name : Option String}
    {draft : RepositoryDraft} (h : requested (.ofClient c net) owner name = .ok draft) :
    draft.owner = owner ∧ draft.name = name := by
  obtain ⟨o, n, rfl, rfl, -, h⟩ := exists_of_requested h
  obtain ⟨m, hm, howner, hname, -⟩ := identityOf_ok h
  obtain ⟨rfl, rfl⟩ := metadata_names hm
  exact ⟨howner, hname⟩

/-- How a generation ends that starts with the store `s`, where `identity` is what is to be stored
about the repository. -/
inductive Generated (identity : Except Fault RepositoryDraft) (s : Store) :
    Except Fault Result → Store → Prop where
  /-- Nothing can be stored about the repository. -/
  | unknown (fault : Fault) : Generated identity s (.error fault) s
  /-- The ingestion or a later stage fails. -/
  | failed {draft : RepositoryDraft} {repository : Repository} {u t : Store} (fault : Fault)
      (known : identity = .ok draft) (put : s.putRepository draft = .ok (repository, u))
      (run : Store.FactRun repository.graphKey u t) : Generated identity s (.error fault) t
  /-- The current document is of the latest commit. -/
  | reused {draft : RepositoryDraft} {repository : Repository} {t : Store} {result : Result}
      (known : identity = .ok draft) (put : s.putRepository draft = .ok (repository, t))
      (current : t.currentSnapshot? repository.id = some result.snapshot)
      (fresh : result.snapshot.commit = repository.commit)
      (text : result.text = result.snapshot.payload) (reused : result.reused = true) :
      Generated identity s (.ok result) t
  /-- A new document is saved. -/
  | made {draft : RepositoryDraft} {repository : Repository} {u v t : Store} {result : Result}
      {namespaceIds : List Id} (known : identity = .ok draft)
      (put : s.putRepository draft = .ok (repository, u))
      (run : Store.FactRun repository.graphKey u v)
      (saved : v.saveSnapshot ⟨repository.id, repository.commit, result.text, result.outputPath,
        namespaceIds⟩ = .ok (result.snapshot, t)) (made : result.reused = false) :
      Generated identity s (.ok result) t

variable {settings : Settings} {random : String} {owner name : String}
variable {force : Bool} {toStart : Option Nat} {w : World}

theorem pruned_run (key : String) (paths : List String) (s : Store) :
    Store.FactRun key s (pruned key paths s) :=
  (Relation.ReflTransGen.single (.deleteFiles s paths)).tail (.deleteNamespaces _)

/-- An ingestion that succeeds has gone through the listed files and removed all others. -/
theorem ingestRepository_ok {repository : Repository} {report : Report}
    (h : ingestion remote settings repository.owner repository.name toStart = .ok report) (w : World) :
    ∃ w' paths u, (ingestRepository remote settings repository toStart).run w = (.ok report, w') ∧
      w'.disk = w.disk ∧ listed remote settings repository.owner repository.name = .ok paths ∧
      Ingested settings.language repository.graphKey (remote.text repository.owner repository.name)
        (started toStart paths) w.store u ∧ w'.store = pruned repository.graphKey paths u := by
  obtain ⟨w', hrun, hdisk, hstore⟩ := ingestRepository_run remote settings repository toStart w
  rw [h] at hrun hstore
  cases hlisted : listed remote settings repository.owner repository.name with
  | error fault =>
    simp only [ingestion, hlisted] at h
    cases h
  | ok paths =>
    rw [hlisted] at hstore
    obtain ⟨u, ingested, hpruned⟩ := hstore
    exact ⟨w', paths, u, hrun, hdisk, rfl, ingested, hpruned⟩

/-- An ingestion that fails has at most gone through some of the listed files. -/
theorem ingestRepository_error {repository : Repository} {fault : Fault}
    (h : ingestion remote settings repository.owner repository.name toStart = .error fault)
    (w : World) :
    ∃ w', (ingestRepository remote settings repository toStart).run w = (.error fault, w') ∧
      w'.disk = w.disk ∧
      (w'.store = w.store ∧ listed remote settings repository.owner repository.name = .error fault ∨
        ∃ paths, listed remote settings repository.owner repository.name = .ok paths ∧
          Ingested settings.language repository.graphKey
            (remote.text repository.owner repository.name) (started toStart paths) w.store
            w'.store) := by
  obtain ⟨w', hrun, hdisk, hstore⟩ := ingestRepository_run remote settings repository toStart w
  rw [h] at hrun hstore
  refine ⟨w', hrun, hdisk, ?_⟩
  cases hlisted : listed remote settings repository.owner repository.name with
  | error unlisted =>
    rw [hlisted] at hstore
    have same : unlisted = fault := by
      simpa only [ingestion, hlisted, Except.error.injEq] using h
    exact .inl ⟨hstore, by rw [same]⟩
  | ok paths =>
    rw [hlisted] at hstore
    obtain ⟨u, ingested, hstore⟩ := hstore
    replace hstore : w'.store = u := hstore
    rw [← hstore] at ingested
    exact .inr ⟨paths, rfl, ingested⟩

theorem freshSnapshot?_eq_some {s : Store} {repository : Repository} {snapshot : Snapshot}
    (h : freshSnapshot? s repository = some snapshot) :
    s.currentSnapshot? repository.id = some snapshot ∧ snapshot.commit = repository.commit := by
  unfold freshSnapshot? at h
  obtain ⟨hcurrent, hcommit⟩ := Option.filter_eq_some_iff.1 h
  exact ⟨hcurrent, of_decide_eq_true hcommit⟩

/-- What a generation answers with a saved document. -/
def reusedResult (snapshot : Snapshot) : Result where
  text := snapshot.payload
  reused := true
  snapshot := snapshot
  report := none
  outputPath := snapshot.exportPath.bind fun path =>
    if path.isEmpty then none else some (Path.ofString path).text

/-- How far a generation comes by usable names, and what its stages have answered; with the answer of
the generation, and the store and the disk after it. -/
inductive Ended (remote : Remote) (settings : Settings) (random owner name : String) (force : Bool)
    (toStart : Option Nat) (w : World) : Except Fault Result → Store → Disk → Prop where
  | unknown {fault : Fault} (known : refreshed remote owner name w.store = .error fault) :
      Ended remote settings random owner name force toStart w (.error fault) w.store w.disk
  | reused {repository : Repository} {t : Store} {snapshot : Snapshot}
      (known : refreshed remote owner name w.store = .ok (repository, t))
      (fresh : freshSnapshot? t repository = some snapshot) (free : force = false) :
      Ended remote settings random owner name force toStart w (.ok (reusedResult snapshot)) t w.disk
  | refused {repository : Repository} {u t : Store} {fault : Fault}
      (known : refreshed remote owner name w.store = .ok (repository, u))
      (renewed : force = true ∨ freshSnapshot? u repository = none)
      (answer : ingestion remote settings repository.owner repository.name toStart = .error fault)
      (facts : t = u ∧ listed remote settings repository.owner repository.name = .error fault ∨
        ∃ paths, listed remote settings repository.owner repository.name = .ok paths ∧
          Ingested settings.language repository.graphKey
            (remote.text repository.owner repository.name) (started toStart paths) u t) :
      Ended remote settings random owner name force toStart w (.error fault) t w.disk
  | unsaved {repository : Repository} {u v : Store} {paths : List String} {report : Report}
      {fault : Fault} (known : refreshed remote owner name w.store = .ok (repository, u))
      (renewed : force = true ∨ freshSnapshot? u repository = none)
      (listing : listed remote settings repository.owner repository.name = .ok paths)
      (answer : ingestion remote settings repository.owner repository.name toStart = .ok report)
      (facts : Ingested settings.language repository.graphKey
        (remote.text repository.owner repository.name) (started toStart paths) u v)
      (saved : exported settings random repository report (pruned repository.graphKey paths v)
        w.disk = .error fault) :
      Ended remote settings random owner name force toStart w (.error fault)
        (pruned repository.graphKey paths v)
        (diskAfter settings random repository report (pruned repository.graphKey paths v) w.disk)
  | made {repository : Repository} {u v t : Store} {paths : List String} {report : Report}
      {result : Result} (known : refreshed remote owner name w.store = .ok (repository, u))
      (renewed : force = true ∨ freshSnapshot? u repository = none)
      (listing : listed remote settings repository.owner repository.name = .ok paths)
      (answer : ingestion remote settings repository.owner repository.name toStart = .ok report)
      (facts : Ingested settings.language repository.graphKey
        (remote.text repository.owner repository.name) (started toStart paths) u v)
      (saved : exported settings random repository report (pruned repository.graphKey paths v)
        w.disk = .ok (result, t)) :
      Ended remote settings random owner name force toStart w (.ok result) t
        (diskAfter settings random repository report (pruned repository.graphKey paths v) w.disk)

theorem generateNamed_ended (remote : Remote) (settings : Settings) (random owner name : String)
    (force : Bool) (toStart : Option Nat) (w : World) :
    Ended remote settings random owner name force toStart w
      ((generateNamed remote settings random owner name force toStart).run w).1
      ((generateNamed remote settings random owner name force toStart).run w).2.store
      ((generateNamed remote settings random owner name force toStart).run w).2.disk := by
  unfold generateNamed
  obtain ⟨w₁, hrun, hstore₁, hdisk₁, -⟩ := refresh_run remote owner name w
  rw [Step.run_bind, hrun]
  cases known : refreshed remote owner name w.store with
  | error fault =>
    rw [known] at hstore₁
    simp only [Except.map, hstore₁, hdisk₁, storeAfter]
    exact .unknown known
  | ok answered =>
    obtain ⟨repository, u⟩ := answered
    rw [known] at hstore₁
    replace hstore₁ : w₁.store = u := hstore₁
    dsimp only [Except.map]
    rw [Step.run_bind, Step.run_get]
    dsimp only
    rw [hstore₁]
    split
    · next snapshot fresh =>
      change Ended _ _ _ _ _ _ _ _ _ w₁.store w₁.disk
      rw [hstore₁, hdisk₁]
      exact .reused known fresh rfl
    · next force _ _ stale =>
      have renewed : force = true ∨ freshSnapshot? u repository = none := by
        cases force with
        | true => exact .inl rfl
        | false =>
          refine .inr (Option.eq_none_iff_forall_ne_some.2 fun snapshot fresh => ?_)
          exact stale snapshot fresh rfl
      rw [Step.run_bind]
      cases answer : ingestion remote settings repository.owner repository.name toStart with
      | error fault =>
        obtain ⟨w₂, hrun, hdisk₂, facts⟩ := ingestRepository_error answer w₁
        rw [hrun, hdisk₂, hdisk₁]
        exact .refused known renewed answer (hstore₁ ▸ facts)
      | ok report =>
        obtain ⟨w₂, paths, v, hrun, hdisk₂, listing, facts, hpruned⟩ := ingestRepository_ok answer w₁
        obtain ⟨w₃, hrun', hstore₃, hdisk₃⟩ := exportDocument_run settings random repository report w₂
        rw [hrun]
        dsimp only
        rw [hrun', hstore₃, hdisk₃, hpruned, hdisk₂, hdisk₁]
        rw [hstore₁] at facts
        cases saved : exported settings random repository report (pruned repository.graphKey paths v)
          w.disk with
        | error fault => exact .unsaved known renewed listing answer facts saved
        | ok made => exact .made known renewed listing answer facts saved

theorem Ended.generated {answer : Except Fault Result} {t : Store} {d : Disk}
    (h : Ended remote settings random owner name force toStart w answer t d) :
    Generated (identityOf remote owner name) w.store answer t := by
  cases h with
  | unknown => exact .unknown _
  | reused known fresh =>
    obtain ⟨draft, known, put⟩ := refreshed_eq_ok.1 known
    obtain ⟨current, fresh⟩ := freshSnapshot?_eq_some fresh
    exact .reused known put current fresh rfl rfl
  | refused known _ _ facts =>
    obtain ⟨draft, known, put⟩ := refreshed_eq_ok.1 known
    refine .failed _ known put ?_
    rcases facts with ⟨rfl, -⟩ | ⟨paths, -, ingested⟩
    · exact .refl
    · exact ingested.run
  | unsaved known _ _ _ facts =>
    obtain ⟨draft, known, put⟩ := refreshed_eq_ok.1 known
    exact .failed _ known put (facts.run.trans (pruned_run ..))
  | made known _ _ _ facts saved =>
    obtain ⟨draft, known, put⟩ := refreshed_eq_ok.1 known
    obtain ⟨tree, outputPath, snapshot, -, -, document, rfl⟩ := exported_eq_ok.1 saved
    exact .made known put (facts.run.trans (pruned_run ..)) document rfl

/-- A generation that is asked for by usable names is the one of these names. -/
theorem generate_named (remote : Remote) (settings : Settings) (random : String) (force : Bool)
    (toStart : Option Nat) (w : World) (hnames : (isBlankText owner || isBlankText name) = false) :
    (generate remote settings random (some owner) (some name) force toStart w).1 =
        ((generateNamed remote settings random owner name force toStart).run w).1 ∧
      (generate remote settings random (some owner) (some name) force toStart w).2.store =
        ((generateNamed remote settings random owner name force toStart).run w).2.store ∧
      (generate remote settings random (some owner) (some name) force toStart w).2.requests =
        ((generateNamed remote settings random owner name force toStart).run w).2.requests ∧
      (generate remote settings random (some owner) (some name) force toStart w).2.disk =
        ((generateNamed remote settings random owner name force toStart).run w).2.disk := by
  simp only [generate, hnames]
  exact ⟨rfl, rfl, rfl, rfl⟩

/-- A generation is refused for its names at once, or comes as far as one by usable names. -/
theorem generate_ended (remote : Remote) (settings : Settings) (random : String)
    (owner name : Option String) (force : Bool) (toStart : Option Nat) (w : World) :
    (requested remote owner name = .error .blankName ∧
        (generate remote settings random owner name force toStart w).1 = .error .blankName ∧
        (generate remote settings random owner name force toStart w).2.store = w.store ∧
        (generate remote settings random owner name force toStart w).2.disk = w.disk) ∨
      ∃ o n, owner = some o ∧ name = some n ∧ (isBlankText o || isBlankText n) = false ∧
        Ended remote settings random o n force toStart w
          (generate remote settings random owner name force toStart w).1
          (generate remote settings random owner name force toStart w).2.store
          (generate remote settings random owner name force toStart w).2.disk := by
  cases owner with
  | none => exact .inl ⟨rfl, rfl, rfl, rfl⟩
  | some owner =>
    cases name with
    | none => exact .inl ⟨rfl, rfl, rfl, rfl⟩
    | some name =>
      cases hnames : isBlankText owner || isBlankText name with
      | true =>
        refine .inl ?_
        simp only [generate, requested, hnames, if_true, and_self]
      | false =>
        obtain ⟨hresult, hstore, -, hdisk⟩ :=
          generate_named remote settings random force toStart w hnames
        refine .inr ⟨owner, name, rfl, rfl, hnames, ?_⟩
        rw [hresult, hstore, hdisk]
        exact generateNamed_ended remote settings random owner name force toStart w

/-- Every generation ends in one of these ways, whatever it is asked for. -/
theorem generate_generated (remote : Remote) (settings : Settings) (random : String)
    (owner name : Option String) (force : Bool) (toStart : Option Nat) (w : World) :
    Generated (requested remote owner name) w.store
      (generate remote settings random owner name force toStart w).1
      (generate remote settings random owner name force toStart w).2.store := by
  rcases generate_ended remote settings random owner name force toStart w with
    ⟨-, answer, store, -⟩ | ⟨owner, name, rfl, rfl, hnames, ended⟩
  · rw [answer, store]
    exact .unknown _
  · have generated := ended.generated
    simpa only [requested, hnames, Bool.false_eq_true, if_false] using generated

/-! ## Saved documents -/

/-- Where the saved document is of the latest commit it is returned. Nothing is asked for but what is
known about the repository. -/
theorem generateNamed_reuses {repository : Repository} {u : Store} {snapshot : Snapshot}
    (known : refreshed remote owner name w.store = .ok (repository, u))
    (fresh : freshSnapshot? u repository = some snapshot) :
    ∃ w', (generateNamed remote settings random owner name false toStart).run w =
        (.ok (reusedResult snapshot), w') ∧ w'.store = u ∧
      w'.requests = w.requests ++ (remote.metadata owner name).requests := by
  obtain ⟨w', hrun, hstore, -, hrequests⟩ := refresh_run remote owner name w
  rw [known] at hrun hstore
  replace hstore : w'.store = u := hstore
  unfold generateNamed
  rw [Step.run_bind, hrun]
  dsimp only [Except.map]
  rw [Step.run_bind, Step.run_get]
  dsimp only
  rw [hstore, fresh]
  exact ⟨_, rfl, hstore, hrequests⟩

/-! ## New documents -/

/-- Where the saved document is not reused and the files are ingested, what is exported is what the
generation comes to. -/
theorem generateNamed_exports {repository : Repository} {u : Store} {report : Report}
    (known : refreshed remote owner name w.store = .ok (repository, u))
    (renewed : force = true ∨ freshSnapshot? u repository = none)
    (answer : ingestion remote settings repository.owner repository.name toStart = .ok report) :
    ∃ paths v, listed remote settings repository.owner repository.name = .ok paths ∧
      Ingested settings.language repository.graphKey (remote.text repository.owner repository.name)
        (started toStart paths) u v ∧
      ∀ result t, exported settings random repository report (pruned repository.graphKey paths v)
          w.disk = .ok (result, t) →
        ((generateNamed remote settings random owner name force toStart).run w).1 = .ok result ∧
          ((generateNamed remote settings random owner name force toStart).run w).2.store = t := by
  have ended := generateNamed_ended remote settings random owner name force toStart w
  generalize ((generateNamed remote settings random owner name force toStart).run w).2.disk = d
    at ended
  generalize ((generateNamed remote settings random owner name force toStart).run w).2.store = t
    at ended ⊢
  generalize ((generateNamed remote settings random owner name force toStart).run w).1 = result
    at ended ⊢
  cases ended with
  | unknown no => cases no.symm.trans known
  | reused known' fresh free =>
    cases known'.symm.trans known
    rcases renewed with forced | stale
    · cases forced.symm.trans free
    · cases fresh.symm.trans stale
  | refused known' _ no =>
    cases known'.symm.trans known
    cases no.symm.trans answer
  | unsaved known' _ listing answer' facts unsaved =>
    cases known'.symm.trans known
    cases answer'.symm.trans answer
    refine ⟨_, _, listing, facts, fun result t saved => ?_⟩
    cases unsaved.symm.trans saved
  | made known' _ listing answer' facts saved =>
    cases known'.symm.trans known
    cases answer'.symm.trans answer
    refine ⟨_, _, listing, facts, fun result t saved' => ?_⟩
    cases saved.symm.trans saved'
    exact ⟨rfl, rfl⟩

variable (random force w) in
/-- Where no stage fails and no saved document is reused, there is a new document. -/
theorem generateNamed_makes {draft : RepositoryDraft} {repository : Repository} {u : Store}
    {report : Report} (known : identityOf remote owner name = .ok draft)
    (put : w.store.putRepository draft = .ok (repository, u))
    (stale : freshSnapshot? u repository = none)
    (answer : ingestion remote settings repository.owner repository.name toStart = .ok report) :
    ∃ paths v, listed remote settings repository.owner repository.name = .ok paths ∧
      Ingested settings.language repository.graphKey (remote.text repository.owner repository.name)
        (started toStart paths) u v ∧
      ∀ tree outputPath, treeOf repository (pruned repository.graphKey paths v) = .ok tree →
        outputOf settings random repository (tree.render settings.order) report w.disk =
          .ok outputPath →
        (∃ saved, (pruned repository.graphKey paths v).saveSnapshot
          (documentOf repository tree (tree.render settings.order) outputPath) = .ok saved) →
        ∃ result, ((generateNamed remote settings random owner name force toStart).run w).1 =
            .ok result ∧ result.reused = false ∧ result.text = tree.render settings.order := by
  have first := refreshed_eq_ok.2 ⟨draft, known, put⟩
  obtain ⟨paths, v, listing, facts, exports⟩ := generateNamed_exports first (.inr stale) answer
  refine ⟨paths, v, listing, facts, fun tree outputPath htree houtput ⟨saved, hsaved⟩ => ?_⟩
  obtain ⟨ok, -⟩ := exports _ saved.2
    (exported_eq_ok.2 ⟨tree, outputPath, saved.1, htree, houtput, hsaved, rfl⟩)
  exact ⟨_, ok, rfl, rfl⟩

end CodeOutline.Service
