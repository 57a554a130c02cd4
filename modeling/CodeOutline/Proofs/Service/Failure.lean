import CodeOutline.Proofs.Service.Isolation
import CodeOutline.Proofs.Service.View

/-!
# How a generation fails

An error names the stage that failed: `FailsAt` has, for each stage, what has been answered up to the
failure and what the error says. Beside these there are answers that no stage is prepared for, of the
remote, of the database and of the disk; with them a generation ends in a fault that names no stage
(`Escapes`). There is no other way to fail, and each of these ways is taken (`history_failure`). All
this is about texts of well-formed Unicode, an unbounded depth of calls, and the answers that a network
can give here.

Every stage is inverted by one lemma, `_error_iff`, and the theorem puts them together along the view
of the repository that is asked for.
-/

namespace CodeOutline.Service

open CodeOutline.Data CodeOutline.Files CodeOutline.Graph CodeOutline.Ingest CodeOutline.Json
open CodeOutline.Remote CodeOutline.Report CodeOutline.Text

/-! ## Ways to fail -/

namespace Generation

variable (g : Generation) (views : String → String → View)

/-- An owner or a name is missing or blank. -/
def Nameless : Prop := g.owner.all isBlankText ∨ g.name.all isBlankText

/-- The generation asks by usable names. -/
structure Named (owner name : String) : Prop where
  ofOwner : g.owner = some owner
  ofName : g.name = some name
  usable : (isBlankText owner || isBlankText name) = false

/-- The generation comes to the files of the repository `r`, as far as it is described. -/
structure Renews (r : Repository) : Prop where
  known : ∃ draft, requested g.remote g.owner g.name = .ok draft ∧ described draft = .ok r
  renewed : g.force = true ∨
    (views r.owner r.name).current.filter (·.commit = r.commit) = none

/-- The listed files are gone through, and the report on them is accepted. -/
structure Ingests (r : Repository) (paths : List String) (report : Report) : Prop extends
    g.Renews views r where
  listing : listed g.remote g.settings r.owner r.name = .ok paths
  answer : ingestion g.remote g.settings r.owner r.name g.toStart = .ok report

/-- What is seen of the repository once its files have been gone through. -/
def after (r : Repository) (paths : List String) : View :=
  ((views r.owner r.name).ingested (parsed g.settings.language (g.remote.text r.owner r.name)
    (started g.toStart paths))).pruned paths

/-- The text of the repository's document then. -/
def textAfter (r : Repository) (paths : List String) : String :=
  documentText g.settings.order (headingOf r) (g.after views r paths).names
    (g.after views r paths).contents

/-- A stage fails with an error of its own. -/
inductive FailsAt : Stage → GenerationError → Prop where
  | metadata {owner name : String} {fault : FetchFault} (named : g.Named owner name)
      (answer : (g.remote.metadata owner name).result = .error (.fetch fault)) :
      FailsAt .metadata ⟨.metadata fault, none⟩
  | listing {r : Repository} {fault : FetchFault} (renews : g.Renews views r)
      (answer : (g.remote.listing r.owner r.name g.settings.basePath).result =
        .error (.fetch fault)) : FailsAt .ingestion ⟨.listing fault, none⟩
  | report {r : Repository} {paths : List String} {outcomes : List Outcome} {e : GenerationError}
      (renews : g.Renews views r) (listing : listed g.remote g.settings r.owner r.name = .ok paths)
      (results : resultsOf g.settings.language (g.remote.text r.owner r.name) g.toStart paths =
        outcomes.map .ok)
      (refused : accepted g.settings paths ⟨slugOf r.owner r.name, outcomes⟩ =
        .error (.generation e)) : FailsAt .ingestion e
  | assembly {r : Repository} {paths : List String} {report : Report}
      (ingests : g.Ingests views r paths report) (nothing : (g.after views r paths).names = []) :
      FailsAt .assembly ⟨.assembly (.notFound r.name), some report⟩
  | exporting {r : Repository} {paths : List String} {report : Report} {e : GenerationError}
      (ingests : g.Ingests views r paths report) (shown : (g.after views r paths).names ≠ [])
      (refused : outputOf g.settings g.random r (g.textAfter views r paths) report g.disk =
        .error (.generation e)) : FailsAt .exporting e

/-- A stage ends with a fault that it is not prepared for. -/
inductive Escapes : Stage → Fault → Prop where
  | metadata {owner name : String} {fault : RemoteFault} (named : g.Named owner name)
      (answer : (g.remote.metadata owner name).result = .error fault)
      (unforeseen : ∀ f, fault ≠ .fetch f) : Escapes .metadata (.remote fault)
  /-- A description or a branch is no value that the database takes. -/
  | column {owner name : String} {m : Client.Metadata} {fault : ColumnFault}
      (named : g.Named owner name) (answer : (g.remote.metadata owner name).result = .ok m)
      (misfit : draftOf m = .error fault) : Escapes .metadata (.column fault)
  /-- The metadata lack a value that the database asks for. -/
  | missing {draft : RepositoryDraft} {fault : StoreFault}
      (known : requested g.remote g.owner g.name = .ok draft)
      (missing : described draft = .error fault) : Escapes .metadata (.store fault)
  | listing {r : Repository} {fault : RemoteFault} (renews : g.Renews views r)
      (answer : (g.remote.listing r.owner r.name g.settings.basePath).result = .error fault)
      (unforeseen : ∀ f, fault ≠ .fetch f) : Escapes .ingestion (.remote fault)
  /-- The path of a listed file is no text. -/
  | paths {r : Repository} {entries : List Client.Entry} {fault : RemoteFault}
      (renews : g.Renews views r)
      (answer : (g.remote.listing r.owner r.name g.settings.basePath).result = .ok entries)
      (misfit : handledPaths g.settings.language entries = .error fault) :
      Escapes .ingestion (.remote fault)
  /-- The first answer for a file that the ingestion does not know what to do with. -/
  | content {r : Repository} {paths before rest : List String} {path : String}
      {fault : RemoteFault} (renews : g.Renews views r)
      (listing : listed g.remote g.settings r.owner r.name = .ok paths)
      (order : started g.toStart paths = before ++ path :: rest)
      (foreseen : ∀ q ∈ before, ∃ o,
        resultOf g.settings.language (g.remote.text r.owner r.name) q = .ok o)
      (answer : (g.remote.text r.owner r.name path).result = .error fault)
      (unforeseen : ∀ f, fault ≠ .fetch f) : Escapes .ingestion (.remote fault)
  /-- The links on the way to the report lead back to themselves. -/
  | loop {r : Repository} {paths : List String} {report : Report} {directory : String}
      {place : Files.Place} (ingests : g.Ingests views r paths report)
      (shown : (g.after views r paths).names ≠ [])
      (written : g.settings.outputDirectory = some directory)
      (loops : LoopsAt g.disk r directory place) : Escapes .exporting (.resolve (.loop place))

end Generation

/-! ## Stages -/

section Stages

variable {ε α β : Type}

/-- All answers are there, or there is a first one that is not. -/
theorem exists_ok_or_first_error (f : α → Except ε β) (l : List α) :
    (∃ bs : List β, l.map f = bs.map .ok) ∨
      ∃ before a rest e, l = before ++ a :: rest ∧ (∀ x ∈ before, ∃ b, f x = .ok b) ∧
        f a = .error e := by
  induction l with
  | nil => exact .inl ⟨[], rfl⟩
  | cons x others ih =>
    cases hx : f x with
    | error e => exact .inr ⟨[], x, others, e, rfl, nofun, hx⟩
    | ok b =>
      rcases ih with ⟨bs, hbs⟩ | ⟨before, a, rest, e, hl, hbefore, ha⟩
      · exact .inl ⟨b :: bs, by rw [List.map_cons, List.map_cons, hx, hbs]⟩
      · refine .inr ⟨x :: before, a, rest, e, by rw [hl, List.cons_append], ?_, ha⟩
        intro y hy
        rcases List.mem_cons.1 hy with rfl | hy
        · exact ⟨b, hx⟩
        · exact hbefore y hy

end Stages

/-- A call fails with an error of the stage, or with a fault that callers are not prepared for. -/
theorem answerOf_error_iff {α : Type} {call : Call α} {ofFetch : FetchFault → GenerationFault}
    {fault : Fault} :
    answerOf call ofFetch = .error fault ↔
      (∃ f, call.result = .error (.fetch f) ∧ fault = .generation ⟨ofFetch f, none⟩) ∨
        ∃ f, call.result = .error f ∧ (∀ x, f ≠ .fetch x) ∧ fault = .remote f := by
  unfold answerOf
  cases call.result with
  | ok a => simp
  | error f => cases f <;> simp [eq_comm]

theorem answerOf_eq_ok {α : Type} {call : Call α} {ofFetch : FetchFault → GenerationFault} {a : α} :
    answerOf call ofFetch = .ok a ↔ call.result = .ok a := by
  constructor
  · exact answerOf_ok
  · intro h
    unfold answerOf
    rw [h]

section Inversions

variable {remote : Remote} {settings : Settings} {random owner name : String} {fault : Fault}
variable {toStart : Option Nat} {paths : List String}

theorem identityOf_error_iff :
    identityOf remote owner name = .error fault ↔
      (∃ f, (remote.metadata owner name).result = .error (.fetch f) ∧
        fault = .generation ⟨.metadata f, none⟩) ∨
      (∃ f, (remote.metadata owner name).result = .error f ∧ (∀ x, f ≠ .fetch x) ∧
        fault = .remote f) ∨
      ∃ m f, (remote.metadata owner name).result = .ok m ∧ draftOf m = .error f ∧
        fault = .column f := by
  have stages : identityOf remote owner name =
      answerOf (remote.metadata owner name) .metadata >>= fun m => (draftOf m).mapError .column := by
    unfold identityOf
    cases answerOf (remote.metadata owner name) .metadata <;> rfl
  rw [stages, andThen_eq_error, answerOf_error_iff, or_assoc]
  simp only [answerOf_eq_ok, mapError_eq_error, eq_comm (b := fault), exists_and_left]

theorem listed_error_iff :
    listed remote settings owner name = .error fault ↔
      (∃ f, (remote.listing owner name settings.basePath).result = .error (.fetch f) ∧
        fault = .generation ⟨.listing f, none⟩) ∨
      (∃ f, (remote.listing owner name settings.basePath).result = .error f ∧
        (∀ x, f ≠ .fetch x) ∧ fault = .remote f) ∨
      ∃ entries f, (remote.listing owner name settings.basePath).result = .ok entries ∧
        handledPaths settings.language entries = .error f ∧ fault = .remote f := by
  have stages : listed remote settings owner name =
      answerOf (remote.listing owner name settings.basePath) .listing >>= fun entries =>
        (handledPaths settings.language entries).mapError .remote := by
    unfold listed
    cases answerOf (remote.listing owner name settings.basePath) .listing <;> rfl
  rw [stages, andThen_eq_error, answerOf_error_iff, or_assoc]
  simp only [answerOf_eq_ok, mapError_eq_error, eq_comm (b := fault), exists_and_left]

/-- Only an answer that nobody is prepared for is no outcome. -/
theorem resultOf_error_iff {language : Language} {fetch : String → Call String} {path : String}
    {f : RemoteFault} :
    resultOf language fetch path = .error f ↔
      (fetch path).result = .error f ∧ ∀ x, f ≠ .fetch x := by
  unfold resultOf
  cases (fetch path).result with
  | ok text => simp
  | error g =>
    constructor
    · intro h
      cases g <;> cases h <;> exact ⟨rfl, nofun⟩
    · rintro ⟨⟨⟩, unforeseen⟩
      cases f with
      | fetch x => exact absurd rfl (unforeseen x)
      | _ => rfl

/-- Of listed files, one has an unforeseen answer, or each has an outcome and they are refused. -/
theorem ingestion_error_iff (listing : listed remote settings owner name = .ok paths) :
    ingestion remote settings owner name toStart = .error fault ↔
      (∃ before path rest f, started toStart paths = before ++ path :: rest ∧
        (∀ q ∈ before, ∃ o, resultOf settings.language (remote.text owner name) q = .ok o) ∧
        (remote.text owner name path).result = .error f ∧ (∀ x, f ≠ .fetch x) ∧
        fault = .remote f) ∨
      ∃ outcomes, resultsOf settings.language (remote.text owner name) toStart paths =
          outcomes.map .ok ∧
        accepted settings paths ⟨slugOf owner name, outcomes⟩ = .error fault := by
  have bad {before rest : List String} {path : String} {f : RemoteFault}
      (order : started toStart paths = before ++ path :: rest)
      (foreseen : ∀ q ∈ before, ∃ o, resultOf settings.language (remote.text owner name) q = .ok o)
      (failed : resultOf settings.language (remote.text owner name) path = .error f) :
      ingestion remote settings owner name toStart = .error (.remote f) := by
    have first : (resultsOf settings.language (remote.text owner name) toStart paths).mapM id =
        .error f := by
      rw [resultsOf, order, List.map_append, List.map_cons, failed, List.append_assoc,
        List.cons_append]
      refine mapM_eq_error (fun x hx => ?_) rfl
      obtain ⟨q, hq, rfl⟩ := List.mem_map.1 hx
      exact foreseen q hq
    rw [ingestion_of_listed listing, first]
  have good {outcomes : List Outcome}
      (results : resultsOf settings.language (remote.text owner name) toStart paths =
        outcomes.map .ok) :
      ingestion remote settings owner name toStart =
        accepted settings paths ⟨slugOf owner name, outcomes⟩ := by
    have all := mapM_eq_ok.2 ((List.map_id _).trans results)
    rw [ingestion_of_listed listing, all]
  constructor
  · intro h
    rcases exists_ok_or_first_error (resultOf settings.language (remote.text owner name))
      (started toStart paths) with ⟨ran, hran⟩ | ⟨before, path, rest, f, order, foreseen, failed⟩
    · let skipped : List Outcome :=
        (paths.drop (started toStart paths).length).map fun path => ⟨path, .skipped⟩
      have results : resultsOf settings.language (remote.text owner name) toStart paths =
          (ran ++ skipped).map .ok := by
        rw [resultsOf, hran, List.map_append, List.map_map]
        rfl
      exact .inr ⟨_, results, (good results).symm.trans h⟩
    · have e := (bad order foreseen failed).symm.trans h
      obtain ⟨answer, unforeseen⟩ := resultOf_error_iff.1 failed
      exact .inl ⟨before, path, rest, f, order, foreseen, answer, unforeseen,
        (Except.error.inj e).symm⟩
  · rintro (⟨before, path, rest, f, order, foreseen, answer, unforeseen, rfl⟩ |
      ⟨outcomes, results, refused⟩)
    · exact bad order foreseen (resultOf_error_iff.2 ⟨answer, unforeseen⟩)
    · exact (good results).trans refused

/-- There is nothing to show, or its text cannot be written. -/
theorem documentIn_error_iff {r : Repository} {report : Report} {v : View} {d : Disk} :
    documentIn settings random r report v d = .error fault ↔
      v.names = [] ∧ fault = .generation ⟨.assembly (.notFound r.name), some report⟩ ∨
      v.names ≠ [] ∧ outputOf settings random r
        (documentText settings.order (headingOf r) v.names v.contents) report d = .error fault := by
  unfold documentIn
  by_cases nothing : v.names = []
  · rw [if_pos (List.isEmpty_iff.2 nothing)]
    simp [nothing, eq_comm]
  · rw [if_neg fun h => nothing (List.isEmpty_iff.1 h)]
    dsimp only
    rw [map_eq_error]
    simp [nothing]

end Inversions

/-! ## Generations -/

section Generations

variable {g : Generation} {views : String → String → View} {fault : Fault}

theorem Generation.nameless_or_named (g : Generation) :
    g.Nameless ∧ g.comesTo views = .error .blankName ∨ ∃ owner name, g.Named owner name := by
  unfold Nameless Generation.comesTo
  cases howner : g.owner with
  | none => exact .inl ⟨.inl rfl, rfl⟩
  | some owner =>
    cases hname : g.name with
    | none => exact .inl ⟨.inr rfl, rfl⟩
    | some name =>
      cases usable : isBlankText owner || isBlankText name with
      | true => exact .inl ⟨Bool.or_eq_true_iff.1 usable, if_pos usable⟩
      | false => exact .inr ⟨owner, name, howner, hname, usable⟩

namespace Generation.Named

variable {owner name : String} (h : g.Named owner name)
include h

theorem not_nameless : ¬ g.Nameless := by
  obtain ⟨noOwner, noName⟩ := Bool.or_eq_false_iff.1 h.usable
  unfold Nameless
  rw [h.ofOwner, h.ofName, Option.all_some, Option.all_some, noOwner, noName]
  simp

theorem requested_eq : requested g.remote g.owner g.name = identityOf g.remote owner name := by
  rw [h.ofOwner, h.ofName]
  simp only [requested, h.usable, Bool.false_eq_true, if_false]

theorem comesTo_eq : g.comesTo views =
    Service.comesTo g.remote g.settings g.random owner name g.force g.toStart views g.disk := by
  unfold Generation.comesTo
  rw [h.ofOwner, h.ofName]
  simp only [h.usable, Bool.false_eq_true, if_false]

/-- The metadata fail, or the database refuses them, or no new document can be made. -/
theorem comesTo_error_iff :
    g.comesTo views = .error fault ↔
      identityOf g.remote owner name = .error fault ∨
      (∃ draft f, requested g.remote g.owner g.name = .ok draft ∧ described draft = .error f ∧
        fault = .store f) ∨
      ∃ r, g.Renews views r ∧ renewedIn g.remote g.settings g.random g.toStart r
        (views r.owner r.name) g.disk = .error fault := by
  rw [h.comesTo_eq]
  unfold Service.comesTo
  rw [andThen_eq_error, h.requested_eq]
  refine or_congr_right ⟨?_, ?_⟩
  · rintro ⟨draft, hidentity, rest⟩
    rcases andThen_eq_error.1 rest with unfit | ⟨r, hr, rest⟩
    · obtain ⟨f, hf, rfl⟩ := mapError_eq_error.1 unfit
      exact .inl ⟨draft, f, hidentity, hf, rfl⟩
    · refine .inr ⟨r, ?_⟩
      have known : ∃ draft, requested g.remote g.owner g.name = .ok draft ∧
          described draft = .ok r := ⟨draft, h.requested_eq.trans hidentity, mapError_eq_ok.1 hr⟩
      dsimp only at rest
      split at rest
      · cases rest
      · next stale =>
        refine ⟨⟨known, ?_⟩, rest⟩
        cases hforce : g.force with
        | true => exact .inl rfl
        | false =>
          refine .inr (Option.eq_none_iff_forall_ne_some.2 fun saved fresh => ?_)
          exact stale saved fresh hforce
  · rintro (⟨draft, f, hidentity, hf, rfl⟩ | ⟨r, ⟨⟨draft, known, hr⟩, renewed⟩, rest⟩)
    · exact ⟨draft, hidentity, andThen_eq_error.2 (.inl (mapError_eq_error.2 ⟨f, hf, rfl⟩))⟩
    · refine ⟨draft, h.requested_eq.symm.trans known,
        andThen_eq_error.2 (.inr ⟨r, mapError_eq_ok.2 hr, ?_⟩)⟩
      dsimp only
      rcases renewed with forced | stale
      · rw [forced]
        split
        · next no => cases no
        · exact rest
      · rw [stale]
        exact rest

end Generation.Named

/-- What is known about a repository is asked for by usable names. -/
theorem Generation.Renews.named {r : Repository} (h : g.Renews views r) :
    ∃ owner name, g.Named owner name := by
  obtain ⟨draft, known, -⟩ := h.known
  obtain ⟨owner, name, howner, hname, usable, -⟩ := exists_of_requested known
  exact ⟨owner, name, howner, hname, usable⟩

/-- A new document fails with its listing, its files or its export. -/
theorem renewedIn_error_iff {r : Repository} (renews : g.Renews views r) :
    renewedIn g.remote g.settings g.random g.toStart r (views r.owner r.name) g.disk =
        .error fault ↔
      listed g.remote g.settings r.owner r.name = .error fault ∨
      (∃ paths, listed g.remote g.settings r.owner r.name = .ok paths ∧
        ingestion g.remote g.settings r.owner r.name g.toStart = .error fault) ∨
      ∃ paths report, g.Ingests views r paths report ∧
        documentIn g.settings g.random r report (g.after views r paths) g.disk = .error fault := by
  unfold renewedIn
  simp only [andThen_eq_error]
  refine or_congr_right ⟨?_, ?_⟩
  · rintro ⟨paths, listing, unanswered | ⟨report, answer, rest⟩⟩
    · exact .inl ⟨paths, listing, unanswered⟩
    · exact .inr ⟨paths, report, ⟨renews, listing, answer⟩, rest⟩
  · rintro (⟨paths, listing, unanswered⟩ | ⟨paths, report, ⟨-, listing, answer⟩, rest⟩)
    · exact ⟨paths, listing, .inl unanswered⟩
    · exact ⟨paths, listing, .inr ⟨report, answer, rest⟩⟩

/-- An error that is known to the caller or that escapes. -/
def Generation.FailsWith (g : Generation) (views : String → String → View) (fault : Fault) : Prop :=
  (∃ e, fault = .generation e ∧ g.FailsAt views e.stage e) ∨ ∃ stage, g.Escapes views stage fault

/-- A fault of a new document comes up at its listing, at one of its files, or at its export. -/
theorem failsWith_of_renewedIn {r : Repository} (renews : g.Renews views r)
    (h : renewedIn g.remote g.settings g.random g.toStart r (views r.owner r.name) g.disk =
      .error fault) : g.FailsWith views fault := by
  rcases (renewedIn_error_iff renews).1 h with unlisted | ⟨paths, listing, unanswered⟩ |
    ⟨paths, report, ingests, unexported⟩
  · rcases listed_error_iff.1 unlisted with ⟨f, answer, rfl⟩ | ⟨f, answer, unforeseen, rfl⟩ |
      ⟨entries, f, answer, misfit, rfl⟩
    · exact .inl ⟨_, rfl, .listing renews answer⟩
    · exact .inr ⟨_, .listing renews answer unforeseen⟩
    · exact .inr ⟨_, .paths renews answer misfit⟩
  · rcases (ingestion_error_iff listing).1 unanswered with
      ⟨before, path, rest, f, order, foreseen, answer, unforeseen, rfl⟩ |
      ⟨outcomes, results, refused⟩
    · exact .inr ⟨_, .content renews listing order foreseen answer unforeseen⟩
    · obtain ⟨e, rfl, stage, -⟩ := accepted_error refused
      refine .inl ⟨e, rfl, ?_⟩
      rw [stage]
      exact .report renews listing results refused
  · rcases documentIn_error_iff.1 unexported with ⟨nothing, rfl⟩ | ⟨shown, unwritten⟩
    · exact .inl ⟨_, rfl, .assembly ingests nothing⟩
    · rcases outputOf_error unwritten with ⟨f, rfl⟩ | ⟨directory, place, written, loops, rfl⟩
      · exact .inl ⟨_, rfl, .exporting ingests shown unwritten⟩
      · exact .inr ⟨_, .loop ingests shown written loops⟩

theorem failsWith_of_comesTo {owner name : String} (named : g.Named owner name)
    (h : g.comesTo views = .error fault) : g.FailsWith views fault := by
  rcases named.comesTo_error_iff.1 h with unknown | ⟨draft, f, known, missing, rfl⟩ |
    ⟨r, renews, rest⟩
  · rcases identityOf_error_iff.1 unknown with ⟨f, answer, rfl⟩ | ⟨f, answer, unforeseen, rfl⟩ |
      ⟨m, f, answer, misfit, rfl⟩
    · exact .inl ⟨_, rfl, .metadata named answer⟩
    · exact .inr ⟨_, .metadata named answer unforeseen⟩
    · exact .inr ⟨_, .column named answer misfit⟩
  · exact .inr ⟨_, .missing known missing⟩
  · exact failsWith_of_renewedIn renews rest

theorem comesTo_of_renewedIn {r : Repository} (renews : g.Renews views r)
    (h : renewedIn g.remote g.settings g.random g.toStart r (views r.owner r.name) g.disk =
      .error fault) : g.comesTo views = .error fault := by
  obtain ⟨owner, name, named⟩ := renews.named
  exact named.comesTo_error_iff.2 (.inr (.inr ⟨r, renews, h⟩))

theorem comesTo_of_listed {r : Repository} (renews : g.Renews views r)
    (h : listed g.remote g.settings r.owner r.name = .error fault) :
    g.comesTo views = .error fault :=
  comesTo_of_renewedIn renews ((renewedIn_error_iff renews).2 (.inl h))

theorem comesTo_of_ingestion {r : Repository} {paths : List String} (renews : g.Renews views r)
    (listing : listed g.remote g.settings r.owner r.name = .ok paths)
    (h : ingestion g.remote g.settings r.owner r.name g.toStart = .error fault) :
    g.comesTo views = .error fault :=
  comesTo_of_renewedIn renews ((renewedIn_error_iff renews).2 (.inr (.inl ⟨paths, listing, h⟩)))

theorem comesTo_of_documentIn {r : Repository} {paths : List String} {report : Report}
    (ingests : g.Ingests views r paths report)
    (h : documentIn g.settings g.random r report (g.after views r paths) g.disk = .error fault) :
    g.comesTo views = .error fault :=
  comesTo_of_renewedIn ingests.toRenews
    ((renewedIn_error_iff ingests.toRenews).2 (.inr (.inr ⟨paths, report, ingests, h⟩)))

theorem Generation.FailsAt.comesTo {stage : Stage} {e : GenerationError}
    (h : g.FailsAt views stage e) : g.comesTo views = .error (.generation e) := by
  cases h with
  | metadata named answer =>
    exact named.comesTo_error_iff.2 (.inl (identityOf_error_iff.2 (.inl ⟨_, answer, rfl⟩)))
  | listing renews answer =>
    exact comesTo_of_listed renews (listed_error_iff.2 (.inl ⟨_, answer, rfl⟩))
  | report renews listing results refused =>
    exact comesTo_of_ingestion renews listing
      ((ingestion_error_iff listing).2 (.inr ⟨_, results, refused⟩))
  | assembly ingests nothing =>
    exact comesTo_of_documentIn ingests (documentIn_error_iff.2 (.inl ⟨nothing, rfl⟩))
  | exporting ingests shown refused =>
    exact comesTo_of_documentIn ingests (documentIn_error_iff.2 (.inr ⟨shown, refused⟩))

theorem Generation.Escapes.comesTo {stage : Stage} (h : g.Escapes views stage fault) :
    g.comesTo views = .error fault := by
  cases h with
  | metadata named answer unforeseen =>
    exact named.comesTo_error_iff.2
      (.inl (identityOf_error_iff.2 (.inr (.inl ⟨_, answer, unforeseen, rfl⟩))))
  | column named answer misfit =>
    exact named.comesTo_error_iff.2
      (.inl (identityOf_error_iff.2 (.inr (.inr ⟨_, _, answer, misfit, rfl⟩))))
  | missing known missing =>
    obtain ⟨owner, name, howner, hname, usable, -⟩ := exists_of_requested known
    have named : g.Named owner name := ⟨howner, hname, usable⟩
    exact named.comesTo_error_iff.2 (.inr (.inl ⟨_, _, known, missing, rfl⟩))
  | listing renews answer unforeseen =>
    exact comesTo_of_listed renews
      (listed_error_iff.2 (.inr (.inl ⟨_, answer, unforeseen, rfl⟩)))
  | paths renews answer misfit =>
    exact comesTo_of_listed renews
      (listed_error_iff.2 (.inr (.inr ⟨_, _, answer, misfit, rfl⟩)))
  | content renews listing order foreseen answer unforeseen =>
    exact comesTo_of_ingestion renews listing ((ingestion_error_iff listing).2
      (.inl ⟨_, _, _, _, order, foreseen, answer, unforeseen, rfl⟩))
  | loop ingests shown written loops =>
    exact comesTo_of_documentIn ingests
      (documentIn_error_iff.2 (.inr ⟨shown, outputOf_loop written loops⟩))

/-- What a generation comes to is an error in the ways that `FailsAt` and `Escapes` list, and in no
others. -/
theorem comesTo_error_iff :
    g.comesTo views = .error fault ↔
      g.Nameless ∧ fault = .blankName ∨
      (∃ e, fault = .generation e ∧ g.FailsAt views e.stage e) ∨
      ∃ stage, g.Escapes views stage fault := by
  constructor
  · intro h
    rcases g.nameless_or_named with ⟨nameless, blank⟩ | ⟨owner, name, named⟩
    · exact .inl ⟨nameless, (Except.error.inj (blank.symm.trans h)).symm⟩
    · exact .inr (failsWith_of_comesTo named h)
  · rintro (⟨nameless, rfl⟩ | ⟨e, rfl, fails⟩ | ⟨stage, escapes⟩)
    · rcases g.nameless_or_named with ⟨-, blank⟩ | ⟨owner, name, named⟩
      · exact blank
      · exact absurd nameless named.not_nameless
    · exact fails.comesTo
    · exact escapes.comesTo

end Generations

/-- After any generations, one more fails for an unusable name, or with an error that names the stage
that failed, or with a fault that the stage where it comes up is not prepared for. Each of these happens
just where it is said to happen. -/
theorem history_failure (generations : List Generation) (g : Generation) (fault : Fault) :
    let views := viewOf (history generations).world.store
    (g.perform (history generations).world).1 = .error fault ↔
      g.Nameless ∧ fault = .blankName ∨
      (∃ e, fault = .generation e ∧ g.FailsAt views e.stage e) ∨
      ∃ stage, g.Escapes views stage fault := by
  intro views
  have shown := perform_shown g (history_recorded generations).consistent
    (history_forest generations)
  rw [← comesTo_error_iff, ← shown, map_eq_error]

/-! ## A page in Latin-1 -/

/-- A page with an accented letter in Latin-1. -/
def latinPage : Octets := [0x3C, 0x62, 0x3E, 0xE9]

/-- The hosting service answers the request for the repository with a page. -/
def pagedGeneration (page : Octets) : Generation :=
  { Generation.ofTexts [] with
    remote := .ofClient hostedClient
      ((networkOf []).answering "h/repos/acme/tool" (.body page (some "text/html"))) }

/-- A fault of an answer that cannot be decoded. -/
def isEncodingFault : Except Fault Result → Bool
  | .error (.remote (.encoding _)) => true
  | _ => false

/-- The generation ends with the letter that cannot be decoded, and no stage is named. -/
theorem latin_page_escapes :
    ¬ (pagedGeneration latinPage).Nameless ∧
      ∃ fault, ((pagedGeneration latinPage).perform (history []).world).1 =
        .error (.remote (.encoding fault)) := by
  have usable : (isBlankText "acme" || isBlankText "tool") = false := by decide
  have named : (pagedGeneration latinPage).Named "acme" "tool" := ⟨rfl, rfl, usable⟩
  refine ⟨named.not_nameless, ?_⟩
  have undecodable : isEncodingFault ((pagedGeneration latinPage).perform (history []).world).1 := by
    decide +kernel
  unfold isEncodingFault at undecodable
  split at undecodable
  · next fault answer => exact ⟨fault, answer⟩
  · cases undecodable

/-- In ASCII, the page is no JSON, and that is a failure of the metadata. -/
example : (match ((pagedGeneration [0x3C, 0x62, 0x3E, 0x65]).perform (history []).world).1 with
    | .error (.generation e) => e.stage == .metadata
    | _ => false) = true := by
  decide +kernel

end CodeOutline.Service
