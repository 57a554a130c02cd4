import CodeOutline.Proofs.Data.Outcome
import CodeOutline.Proofs.Ingest.Reading
import CodeOutline.Proofs.Remote.Listing
import CodeOutline.Service.Generate

/-!
# Stages of a generation

What each stage answers, and what it does to the store and to the disk. Requests and events are written
down and never read again, so what a stage answers depends on the remote, the store and the disk alone;
`listed` and `ingestion` are the answers of the stages that do not look at the store.
-/

namespace CodeOutline.Service

open CodeOutline.Data CodeOutline.Files CodeOutline.Graph CodeOutline.Ingest CodeOutline.Log
open CodeOutline.Remote CodeOutline.Text

namespace Step

variable {α β : Type} (w : World)

theorem run_bind (x : Step α) (f : α → Step β) :
    (x >>= f).run w =
      match x.run w with
      | (.ok a, w') => (f a).run w'
      | (.error e, w') => (.error e, w') := by
  change (match x w with | (a, s) => ExceptT.bindCont f a s) =
    match x w with
    | (.ok a, w') => (f a).run w'
    | (.error e, w') => (.error e, w')
  rcases x w with ⟨_ | _, _⟩ <;> rfl

theorem run_get : (get : Step World).run w = (.ok w, w) := rfl

theorem run_modify (f : World → World) : (modify f : Step Unit).run w = (.ok (), f w) := rfl

theorem run_note (e : Event) :
    (note e).run w = (.ok (), { w with toProgress := w.toProgress.note e }) := rfl

theorem run_setStore (s : Store) : (setStore s).run w = (.ok (), { w with store := s }) := rfl

/-- Reporting events changes neither the store nor the disk. -/
theorem run_notes (events : List Event) (w : World) :
    ∃ w', (events.forM note).run w = (.ok ⟨⟩, w') ∧ w'.store = w.store ∧ w'.disk = w.disk := by
  induction events generalizing w with
  | nil => exact ⟨w, rfl, rfl, rfl⟩
  | cons event rest ih =>
    obtain ⟨w', hrun, hstore, hdisk⟩ := ih { w with toProgress := w.toProgress.note event }
    refine ⟨w', ?_, hstore, hdisk⟩
    change (note event >>= fun _ => rest.forM note).run w = _
    rw [run_bind, run_note]
    exact hrun

end Step

/-! ## Calls -/

/-- The answer to a call, with the faults that callers are prepared for as errors of a stage. -/
def answerOf {α : Type} (call : Call α) (ofFetch : FetchFault → GenerationFault) : Except Fault α :=
  match call.result with
  | .ok a => .ok a
  | .error (.fetch fault) => .error (.generation ⟨ofFetch fault, none⟩)
  | .error fault => .error (.remote fault)

theorem answerOf_ok {α : Type} {call : Call α} {ofFetch : FetchFault → GenerationFault} {a : α}
    (h : answerOf call ofFetch = .ok a) : call.result = .ok a := by
  unfold answerOf at h
  cases hresult : call.result with
  | error fault =>
    rw [hresult] at h
    cases fault <;> cases h
  | ok b =>
    rw [hresult] at h
    cases h
    rfl

theorem perform_run {α : Type} (call : Call α) (ofFetch : FetchFault → GenerationFault) (w : World) :
    ∃ w', (Step.perform call ofFetch).run w = (answerOf call ofFetch, w') ∧ w'.store = w.store ∧
      w'.disk = w.disk ∧ w'.requests = w.requests ++ call.requests := by
  refine ⟨{ w with toProgress := (w.toProgress.perform call).2 }, ?_, rfl, rfl, rfl⟩
  unfold Step.perform answerOf
  simp only [Step.run_bind, Step.run_get, Step.run_modify, Progress.perform]
  cases call.result with
  | ok a => rfl
  | error fault => cases fault <;> rfl

/-! ## Metadata -/

/-- What is to be stored about a repository. -/
def identityOf (remote : Remote) (owner name : String) : Except Fault RepositoryDraft :=
  match answerOf (remote.metadata owner name) .metadata with
  | .error fault => .error fault
  | .ok m => (draftOf m).mapError .column

/-- The draft says whose metadata it is made of, and its commit. -/
theorem draftOf_ok {m : Client.Metadata} {draft : RepositoryDraft} (h : draftOf m = .ok draft) :
    draft.owner = some m.owner ∧ draft.name = some m.name ∧ draft.commit = m.commit := by
  unfold draftOf at h
  simp only [andThen_eq_ok] at h
  obtain ⟨_, -, _, -, h⟩ := h
  cases h
  exact ⟨rfl, rfl, rfl⟩

/-- The metadata that the hosting service answers with has the names that it was asked for. -/
theorem metadata_names {c : Client} {net : Network} {owner name : String} {m : Client.Metadata}
    (h : (c.metadata net owner name).result = .ok m) : m.owner = owner ∧ m.name = name := by
  unfold Client.metadata at h
  obtain ⟨_, -, h⟩ := bind_result h
  obtain ⟨d, -, h⟩ := bind_result h
  cases d with
  | map entries =>
    obtain ⟨commit, -, h⟩ := bind_result h
    cases h
    exact ⟨rfl, rfl⟩
  | _ => cases h

theorem identityOf_ok {remote : Remote} {owner name : String} {draft : RepositoryDraft}
    (h : identityOf remote owner name = .ok draft) :
    ∃ m, (remote.metadata owner name).result = .ok m ∧ draft.owner = some m.owner ∧
      draft.name = some m.name ∧ draft.commit = m.commit := by
  unfold identityOf at h
  cases hm : answerOf (remote.metadata owner name) .metadata with
  | error fault =>
    rw [hm] at h
    cases h
  | ok m =>
    rw [hm] at h
    exact ⟨m, answerOf_ok hm, draftOf_ok (mapError_eq_ok.1 h)⟩

/-- The store after a stage that answers with the next one, and leaves it as it is where it fails. -/
def storeAfter {α : Type} (s : Store) : Except Fault (α × Store) → Store
  | .ok (_, t) => t
  | .error _ => s

/-- What storing the metadata of a repository comes to. -/
def refreshed (remote : Remote) (owner name : String) (s : Store) :
    Except Fault (Repository × Store) := do
  let draft ← identityOf remote owner name
  (s.putRepository draft).mapError .store

theorem refreshed_eq_ok {remote : Remote} {owner name : String} {s t : Store}
    {repository : Repository} :
    refreshed remote owner name s = .ok (repository, t) ↔
      ∃ draft, identityOf remote owner name = .ok draft ∧
        s.putRepository draft = .ok (repository, t) := by
  simp only [refreshed, andThen_eq_ok, mapError_eq_ok]

theorem refresh_run (remote : Remote) (owner name : String) (w : World) :
    ∃ w', (refresh remote owner name).run w =
        ((refreshed remote owner name w.store).map Prod.fst, w') ∧
      w'.store = storeAfter w.store (refreshed remote owner name w.store) ∧ w'.disk = w.disk ∧
      w'.requests = w.requests ++ (remote.metadata owner name).requests := by
  obtain ⟨w', hrun, hstore, rest⟩ := perform_run (remote.metadata owner name) .metadata w
  unfold refresh refreshed identityOf
  rw [Step.run_bind, hrun]
  cases answerOf (remote.metadata owner name) .metadata with
  | error fault => exact ⟨w', rfl, hstore, rest⟩
  | ok m =>
    dsimp only
    cases draftOf m with
    | error fault => exact ⟨w', rfl, hstore, rest⟩
    | ok draft =>
      dsimp only
      rw [Step.run_bind, Step.run_get]
      dsimp only
      rw [hstore]
      simp only [Except.mapError, bind, Except.bind]
      cases w.store.putRepository draft with
      | error fault => exact ⟨w', rfl, hstore, rest⟩
      | ok put => exact ⟨{ w' with store := put.2 }, rfl, rfl, rest⟩

/-! ## Ingestion -/

/-- The paths of a repository's files that the language handles. -/
def listed (remote : Remote) (settings : Settings) (owner name : String) :
    Except Fault (List String) :=
  match answerOf (remote.listing owner name settings.basePath) .listing with
  | .error fault => .error fault
  | .ok entries => (handledPaths settings.language entries).mapError .remote

/-- The report, unless what became of the files makes the generation fail. -/
def accepted (settings : Settings) (paths : List String) (report : Report) : Except Fault Report :=
  if report.skipped ≠ 0 then .error (.generation ⟨.cancelled, some report⟩)
  else if !paths.isEmpty && report.stored = 0 then
    .error (.generation ⟨.nothingIngested, some report⟩)
  else if report.failed ≠ 0 && settings.failOnErrors then
    .error (.generation ⟨.filesFailed, some report⟩)
  else .ok report

/-- What the ingestion of a repository's files comes to. -/
def ingestion (remote : Remote) (settings : Settings) (owner name : String) (toStart : Option Nat) :
    Except Fault Report :=
  match listed remote settings owner name with
  | .error fault => .error fault
  | .ok paths =>
    match (resultsOf settings.language (remote.text owner name) toStart paths).mapM id with
    | .error fault => .error (.remote fault)
    | .ok outcomes => accepted settings paths ⟨slugOf owner name, outcomes⟩

/-- The store without what belongs to files of other paths. -/
def pruned (key : String) (paths : List String) (s : Store) : Store :=
  ((s.deleteFilesExcept key paths).2.deleteEmptyNamespaces key).2

theorem prune_run (key : String) (paths : List String) (w : World) :
    ∃ w', (prune key paths).run w = (.ok (), w') ∧ w'.store = pruned key paths w.store ∧
      w'.disk = w.disk := by
  unfold prune
  rw [Step.run_bind, Step.run_get]
  dsimp only
  rw [Step.run_bind, Step.run_setStore]
  dsimp only
  split
  · exact ⟨_, rfl, rfl, rfl⟩
  · exact ⟨_, rfl, rfl, rfl⟩

/-- The name of a repository is never blank with its owner, since there is a slash between them. -/
theorem isBlankText_slugOf (owner name : String) : isBlankText (slugOf owner name) = false := by
  unfold isBlankText
  rw [toList_slugOf, List.all_eq_false]
  exact ⟨'/', by simp, by decide⟩

/-- The checks on a report answer what `accepted` says; what is no longer listed goes after them. -/
theorem accept_run (settings : Settings) (key : String) (paths : List String) (report : Report)
    (w : World) :
    ∃ w', (do
        if report.skipped ≠ 0 then Step.fail .cancelled report
        if !paths.isEmpty && report.stored = 0 then Step.fail .nothingIngested report
        if report.failed ≠ 0 && settings.failOnErrors then Step.fail .filesFailed report
        prune key paths
        return report : Step Report).run w = (accepted settings paths report, w') ∧
      w'.disk = w.disk ∧
      match accepted settings paths report with
      | .error _ => w'.store = w.store
      | .ok _ => w'.store = pruned key paths w.store := by
  unfold accepted
  by_cases hskipped : report.skipped ≠ 0
  · simp only [if_pos hskipped]
    exact ⟨w, rfl, rfl, rfl⟩
  by_cases hnothing : (!paths.isEmpty && report.stored = 0) = true
  · simp only [if_neg hskipped, if_pos hnothing]
    exact ⟨w, rfl, rfl, rfl⟩
  by_cases hfailed : (report.failed ≠ 0 && settings.failOnErrors) = true
  · simp only [if_neg hskipped, if_neg hnothing, if_pos hfailed]
    exact ⟨w, rfl, rfl, rfl⟩
  simp only [if_neg hskipped, if_neg hnothing, if_neg hfailed]
  obtain ⟨w', hprune, hstore, hdisk⟩ := prune_run key paths w
  refine ⟨w', ?_, hdisk, hstore⟩
  rw [Step.run_bind, hprune]
  rfl

theorem ingestRepository_run (remote : Remote) (settings : Settings) (repository : Repository)
    (toStart : Option Nat) (w : World) :
    ∃ w', (ingestRepository remote settings repository toStart).run w =
        (ingestion remote settings repository.owner repository.name toStart, w') ∧
      w'.disk = w.disk ∧
      match listed remote settings repository.owner repository.name with
      | .error _ => w'.store = w.store
      | .ok paths => ∃ u, Ingested settings.language repository.graphKey
          (remote.text repository.owner repository.name) (started toStart paths) w.store u ∧
          match ingestion remote settings repository.owner repository.name toStart with
          | .error _ => w'.store = u
          | .ok _ => w'.store = pruned repository.graphKey paths u := by
  obtain ⟨w₁, hrun, hstore, hdisk, -⟩ := perform_run
    (remote.listing repository.owner repository.name settings.basePath) .listing w
  have hkey : isBlankText repository.graphKey = false := isBlankText_slugOf ..
  unfold ingestRepository ingestion listed
  rw [Step.run_bind, hrun]
  cases answerOf (remote.listing repository.owner repository.name settings.basePath) .listing with
  | error fault => exact ⟨w₁, rfl, hdisk, hstore⟩
  | ok entries =>
    dsimp only
    cases handledPaths settings.language entries with
    | error fault => exact ⟨w₁, rfl, hdisk, hstore⟩
    | ok paths =>
      dsimp only [Except.mapError]
      rw [Step.run_bind, Step.run_note]
      dsimp only
      rw [Step.run_bind, Step.run_get]
      dsimp only
      rw [Step.run_bind, Step.run_modify]
      dsimp only
      generalize hp : (w₁.toProgress.note _ : Progress) = p
      have hps : p.store = w.store := by rw [← hp, ← hstore]; rfl
      have ingested := @ingestAll_ingested settings.language _
        (remote.text repository.owner repository.name) hkey p paths toStart
      have report := @ingestAll_report settings.language _
        (remote.text repository.owner repository.name) hkey p paths toStart
      rw [hps] at ingested
      rw [report]
      cases (resultsOf settings.language (remote.text repository.owner repository.name) toStart
        paths).mapM id with
      | error fault => exact ⟨_, rfl, hdisk, _, ingested, rfl⟩
      | ok outcomes =>
        obtain ⟨w', hrun', hdisk', hstore'⟩ := accept_run settings repository.graphKey paths
          ⟨repository.graphKey, outcomes⟩ { w₁ with toProgress := (p.ingestAll settings.language
            repository.graphKey paths (remote.text repository.owner repository.name) toStart).2 }
        refine ⟨w', hrun', hdisk'.trans hdisk, _, ingested, ?_⟩
        exact hstore'

end CodeOutline.Service
