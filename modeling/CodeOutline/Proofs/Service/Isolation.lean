import CodeOutline.Proofs.Remote.Content
import CodeOutline.Proofs.Service.Pruning

/-!
# One file's answer and the others

Once a generation has come to the files of a repository, it asks for each of them. An answer that is a
text or a failure that callers are prepared for decides about its own file and no other: the report has
an outcome for each listed path, in their order, and each is that of its own answer.

An unforeseen answer is not taken for a failure of its file. All files are gone through even then, and
what is stored for the others is what would be stored if that file were not found; but the generation
ends with the first such fault in the place of a report.
-/

namespace CodeOutline.Service

open CodeOutline.Files CodeOutline.Graph CodeOutline.Ingest CodeOutline.Remote CodeOutline.Text

/-! ## Reports -/

/-- What the answer of a generation says about the files. -/
def reportIn? : Except Fault Result → Option Report
  | .ok result => result.report
  | .error (.generation e) => e.report
  | .error _ => none

/-- The generation comes to the files of a repository: what is known about it is stored, no saved
document is reused, and the files at these paths are listed. -/
structure Generation.Lists (g : Generation) (s : Store) (repository : Repository) (u : Store)
    (paths : List String) : Prop where
  known : ∃ draft, requested g.remote g.owner g.name = .ok draft ∧
    s.putRepository draft = .ok (repository, u)
  renewed : g.force = true ∨ freshSnapshot? u repository = none
  listing : listed g.remote g.settings repository.owner repository.name = .ok paths

variable {g : Generation} {w : World} {repository : Repository} {u v : Store} {paths : List String}

/-- What is stored at the listed paths does not change with what is not listed. -/
theorem pruned_stored {key path : String} (hv : v.Consistent) (h : path ∈ paths) :
    (pruned key paths v).stored? key path = v.stored? key path := by
  obtain ⟨hkept, -⟩ := hv.deleteFilesExcept key paths
  rw [pruned, Store.deleteEmptyNamespaces_stored hkept, Store.deleteFilesExcept_stored hv]
  exact if_neg fun gone => gone.2 h

theorem ingestion_of_listed {remote : Remote} {settings : Settings} {owner name : String}
    (h : listed remote settings owner name = .ok paths) (toStart : Option Nat) :
    ingestion remote settings owner name toStart =
      match (resultsOf settings.language (remote.text owner name) toStart paths).mapM id with
      | .error fault => .error (.remote fault)
      | .ok outcomes => accepted settings paths ⟨slugOf owner name, outcomes⟩ := by
  unfold ingestion
  cases answer : listed remote settings owner name with
  | error fault => cases answer.symm.trans h
  | ok paths' =>
    cases answer.symm.trans h
    rfl

/-- An ingestion that fails says what became of the files, unless the fault is one that nobody mends. -/
theorem reportIn?_of_ingestion_error {remote : Remote} {settings : Settings} {owner name : String}
    {toStart : Option Nat} {fault : Fault} (h : listed remote settings owner name = .ok paths)
    (answer : ingestion remote settings owner name toStart = .error fault) :
    match (resultsOf settings.language (remote.text owner name) toStart paths).mapM id with
    | .error f => fault = .remote f
    | .ok outcomes => reportIn? (.error fault) = some ⟨slugOf owner name, outcomes⟩ := by
  rw [ingestion_of_listed h] at answer
  cases hall : (resultsOf settings.language (remote.text owner name) toStart paths).mapM id with
  | error f =>
    rw [hall] at answer
    cases answer
    rfl
  | ok outcomes =>
    rw [hall] at answer
    obtain ⟨e, rfl, -, report⟩ := accepted_error answer
    exact report

/-- An ingestion that succeeds has an outcome for each file. -/
theorem outcomes_of_ingestion_ok {remote : Remote} {settings : Settings} {owner name : String}
    {toStart : Option Nat} {report : Report} (h : listed remote settings owner name = .ok paths)
    (answer : ingestion remote settings owner name toStart = .ok report) :
    ∃ outcomes, (resultsOf settings.language (remote.text owner name) toStart paths).mapM id =
        .ok outcomes ∧ report = ⟨slugOf owner name, outcomes⟩ := by
  rw [ingestion_of_listed h] at answer
  cases hall : (resultsOf settings.language (remote.text owner name) toStart paths).mapM id with
  | error f =>
    rw [hall] at answer
    cases answer
  | ok outcomes =>
    rw [hall] at answer
    exact ⟨outcomes, rfl, (accepted_ok answer).1⟩

/-- Exporting that fails says what became of the files, unless links lead back to themselves. -/
theorem reportIn?_of_exported_error {settings : Settings} {random : String} {report : Report}
    {s : Store} {d : Disk} {fault : Fault} (hs : s.Consistent)
    (hr : repository ∈ s.repositories.rows)
    (h : exported settings random repository report s d = .error fault) :
    reportIn? (.error fault) = some report ∨ ∃ place, fault = .resolve (.loop place) := by
  rcases exported_error hs hr h with ⟨f, -, rfl⟩ | ⟨tree, -, output⟩
  · exact .inl rfl
  · rcases outputOf_error output with ⟨f, rfl⟩ | ⟨_, place, -, -, e⟩
    · exact .inl rfl
    · exact .inr ⟨place, e⟩

/-- A generation that comes to the files goes through those that may be started. It says what became of
them, unless there is a fault that nobody mends, of a file or of the links on the way to the report. -/
theorem Generation.Lists.ended (h : g.Lists w.store repository u paths) (hs : w.store.Consistent) :
    ∃ v, Ingested g.settings.language repository.graphKey
        (g.remote.text repository.owner repository.name) (started g.toStart paths) u v ∧
      (∀ path ∈ paths, (g.perform w).2.store.stored? repository.graphKey path =
        v.stored? repository.graphKey path) ∧
      (∀ outcomes, (resultsOf g.settings.language (g.remote.text repository.owner repository.name)
          g.toStart paths).mapM id = .ok outcomes →
        reportIn? (g.perform w).1 = some ⟨repository.graphKey, outcomes⟩ ∨
          ∃ place, (g.perform w).1 = .error (.resolve (.loop place))) ∧
      ∀ fault, (resultsOf g.settings.language (g.remote.text repository.owner repository.name)
          g.toStart paths).mapM id = .error fault →
        (g.perform w).1 = .error (.remote fault) := by
  obtain ⟨⟨draft, known, put⟩, renewed, listing⟩ := h
  obtain ⟨hu, -⟩ := hs.putRepository put
  unfold Generation.perform
  rcases generate_ended g.remote g.settings g.random g.owner g.name g.force g.toStart
      { w with disk := g.disk } with ⟨refused, -⟩ | ⟨owner, name, howner, hname, hnames, ended⟩
  · cases refused.symm.trans known
  have same : refreshed g.remote owner name w.store = .ok (repository, u) := by
    refine refreshed_eq_ok.2 ⟨draft, ?_, put⟩
    simpa only [howner, hname, requested, hnames, Bool.false_eq_true, if_false] using known
  generalize (generate g.remote g.settings g.random g.owner g.name g.force g.toStart
    { w with disk := g.disk }).2.disk = d at ended
  generalize (generate g.remote g.settings g.random g.owner g.name g.force g.toStart
    { w with disk := g.disk }).2.store = t at ended ⊢
  generalize (generate g.remote g.settings g.random g.owner g.name g.force g.toStart
    { w with disk := g.disk }).1 = answered at ended ⊢
  cases ended with
  | unknown no => cases no.symm.trans same
  | reused known' fresh free =>
    cases known'.symm.trans same
    rcases renewed with forced | stale
    · cases forced.symm.trans free
    · cases fresh.symm.trans stale
  | refused known' _ answer facts =>
    cases known'.symm.trans same
    rcases facts with ⟨-, no⟩ | ⟨paths', listing', facts⟩
    · cases no.symm.trans listing
    cases listing'.symm.trans listing
    have reports := reportIn?_of_ingestion_error listing answer
    refine ⟨_, facts, fun _ _ => rfl, fun outcomes hall => .inl ?_, fun f hall => ?_⟩
    · rw [hall] at reports
      exact reports
    · rw [hall] at reports
      exact congrArg Except.error reports
  | @unsaved _ _ v _ _ _ known' _ listing' answer facts unsaved =>
    cases known'.symm.trans same
    cases listing'.symm.trans listing
    obtain ⟨hv, -⟩ := facts.run.consistent hu
    obtain ⟨-, hp, there⟩ := pruned_known facts hs put paths
    obtain ⟨outcomes, hall, rfl⟩ := outcomes_of_ingestion_ok listing answer
    refine ⟨v, facts, fun path hpath => pruned_stored hv hpath, fun outcomes' hall' => ?_,
      fun f no => by cases no.symm.trans hall⟩
    cases hall'.symm.trans hall
    rcases reportIn?_of_exported_error hp there unsaved with reports | ⟨place, rfl⟩
    · exact .inl reports
    · exact .inr ⟨place, rfl⟩
  | made known' _ listing' answer facts saved =>
    cases known'.symm.trans same
    cases listing'.symm.trans listing
    obtain ⟨hv, -⟩ := facts.run.consistent hu
    obtain ⟨-, hp, -⟩ := pruned_known facts hs put paths
    obtain ⟨outcomes, hall, rfl⟩ := outcomes_of_ingestion_ok listing answer
    obtain ⟨_, _, _, -, -, document, rfl⟩ := exported_eq_ok.1 saved
    refine ⟨_, facts, fun path hpath => ?_, fun outcomes' hall' => ?_,
      fun f no => by cases no.symm.trans hall⟩
    · rw [Store.saveSnapshot_stored hp document, pruned_stored hv hpath]
    · cases hall'.symm.trans hall
      exact .inl rfl

/-- A report says what became of each file. -/
theorem Generation.Lists.outcomes (h : g.Lists w.store repository u paths) (hs : w.store.Consistent)
    {report : Report} (reported : reportIn? (g.perform w).1 = some report) :
    resultsOf g.settings.language (g.remote.text repository.owner repository.name) g.toStart paths =
      report.outcomes.map .ok := by
  obtain ⟨v, -, -, reports, fails⟩ := h.ended hs
  cases all : (resultsOf g.settings.language (g.remote.text repository.owner repository.name)
      g.toStart paths).mapM id with
  | error fault =>
    rw [fails fault all] at reported
    cases reported
  | ok outcomes =>
    rcases reports outcomes all with report' | ⟨place, loops⟩
    · cases report'.symm.trans reported
      exact (List.map_id _).symm.trans (mapM_eq_ok.1 all)
    · rw [loops] at reported
      cases reported

/-! ## One answer in another's place -/

/-- The hosting service, where a network of its own answers the requests for the files' texts. -/
def Remote.ofNetworks (c : Client) (net contents : Network) : Remote where
  metadata := c.metadata net
  listing := c.listFiles net
  text := c.fileText contents

/-- The generation, with the hosting service for a remote. -/
def Generation.answeredBy (g : Generation) (c : Client) (net contents : Network) : Generation :=
  { g with remote := .ofNetworks c net contents }

/-- The outcome of a file, where the request for the file at `path` fails. -/
def refusedAt (path : String) (fault : FetchFault) (o : Outcome) : Outcome :=
  if o.path = path ∧ o.isSkipped = false then ⟨path, .failed .fetch (.fetch fault) none⟩ else o

section Answers

variable {c : Client} {contents : Network} {owner name path p : String} {language : Language}

/-- An answer that is foreseen has an outcome. -/
theorem exists_resultOf
    (h : ∀ fault, ¬ Client.Unforeseen (contents.answer (c.contentAddress owner name path)) fault) :
    ∃ o, resultOf language (c.fileText contents owner name) path = .ok o := by
  unfold resultOf
  rw [Client.fileText_result]
  rcases Client.textIn_cases (c.contentUrl owner name path) path
      (contents.answer (c.contentAddress owner name path)) with
    ⟨text, e⟩ | ⟨fault, e⟩ | ⟨fault, -, unforeseen⟩
  · rw [e]
    exact ⟨_, rfl⟩
  · rw [e]
    exact ⟨_, rfl⟩
  · exact absurd unforeseen (h fault)

theorem resultOf_unforeseen {fault : RemoteFault}
    (h : Client.Unforeseen (contents.answer (c.contentAddress owner name path)) fault) :
    resultOf language (c.fileText contents owner name) path = .error fault := by
  obtain ⟨e, unprepared⟩ := (Client.unforeseen_iff (c.contentUrl owner name path) path).1 h
  unfold resultOf
  rw [Client.fileText_result, e]
  cases fault with
  | fetch f => exact absurd rfl (unprepared f)
  | _ => rfl

/-- Where the file at `p` is not found, its outcome says so, and all others are what they were. -/
theorem resultOf_without (hpath : path ≠ "") (hp : p ≠ "") {o : Outcome}
    (ok : resultOf language (c.fileText contents owner name) path = .ok o) :
    resultOf language (c.fileText (contents.without c owner name p) owner name) path =
      .ok (refusedAt p (.status 404 (c.contentUrl owner name p)) o) := by
  obtain ⟨hname, stored, failed⟩ := outcome_of_resultOf ok
  have started : o.isSkipped = false := by
    cases o with
    | mk path result => cases result <;> simp_all [Outcome.isSkipped, Outcome.isStored, Outcome.isFailed]
  unfold refusedAt
  by_cases here : path = p
  · rw [if_pos ⟨hname.trans here, started⟩, here]
    unfold resultOf
    rw [Client.fileText_without_self]
  · rw [if_neg fun h => here (hname.symm.trans h.1)]
    unfold resultOf at ok ⊢
    rwa [Client.fileText_without hp hpath here]

/-- What is to be stored for a file is that of its own answer. -/
theorem fetched?_without (hpath : path ≠ "") (hp : p ≠ "") (h : path ≠ p) :
    fetched? language (c.fileText (contents.without c owner name p) owner name) path =
      fetched? language (c.fileText contents owner name) path := by
  unfold fetched? storable?
  rw [Client.fileText_without hp hpath h]

/-- A file that the language handles has a path. -/
theorem ne_empty_of_handles (h : language.handles path) : path ≠ "" := by
  rintro rfl
  cases language
  exact absurd h (by decide)

/-- The files of a batch are those that are started and the others after them. -/
theorem started_append_drop (toStart : Option Nat) (paths : List String) :
    started toStart paths ++ paths.drop (started toStart paths).length = paths := by
  cases toStart with
  | none => simp [started]
  | some n =>
    have length : (paths.take n).length = n ∨ paths.length ≤ n := by
      rw [List.length_take]
      omega
    rcases length with length | short
    · rw [started, length, List.take_append_drop]
    · simp [started, List.take_of_length_le short]

/-- Each file of a batch has an outcome of its own. -/
theorem paths_of_resultsOf {fetch : String → Call String} {toStart : Option Nat}
    {outcomes : List Outcome}
    (h : resultsOf language fetch toStart paths = outcomes.map .ok) :
    outcomes.map (·.path) = paths := by
  obtain ⟨ran, skipped, rfl, hran, hskipped⟩ := List.map_eq_append_iff.1 h.symm
  have first : ran.map (·.path) = started toStart paths :=
    map_of_map_ok hran.symm fun path o ho => (outcome_of_resultOf ho).1
  have second : skipped.map (·.path) = paths.drop (started toStart paths).length :=
    map_of_map_ok hskipped.symm fun path o ho => by
      cases ho
      rfl
  rw [List.map_append, first, second, started_append_drop]

/-- Where the file at `p` is not found, the outcomes of all others are what they were. -/
theorem resultsOf_without {toStart : Option Nat} (hpaths : ∀ path ∈ paths, path ≠ "") (hp : p ≠ "")
    {outcomes : List Outcome}
    (ok : resultsOf language (c.fileText contents owner name) toStart paths = outcomes.map .ok) :
    resultsOf language (c.fileText (contents.without c owner name p) owner name) toStart paths =
      (outcomes.map (refusedAt p (.status 404 (c.contentUrl owner name p)))).map .ok := by
  have refused : ∀ path ∈ started toStart paths,
      resultOf language (c.fileText (contents.without c owner name p) owner name) path =
        (resultOf language (c.fileText contents owner name) path).map
          (refusedAt p (.status 404 (c.contentUrl owner name p))) := by
    intro path hpath
    have mem : resultOf language (c.fileText contents owner name) path ∈
        outcomes.map (.ok : Outcome → Except RemoteFault Outcome) := by
      rw [← ok]
      exact List.mem_append_left _ (List.mem_map_of_mem hpath)
    obtain ⟨o, -, e⟩ := List.mem_map.1 mem
    rw [← e]
    exact resultOf_without (hpaths path (started_subset toStart paths hpath)) hp e.symm
  have split : (outcomes.map (refusedAt p (.status 404 (c.contentUrl owner name p)))).map
      (.ok : Outcome → Except RemoteFault Outcome) =
      (outcomes.map (.ok : Outcome → Except RemoteFault Outcome)).map
        (Except.map (refusedAt p (.status 404 (c.contentUrl owner name p)))) := by
    rw [List.map_map, List.map_map]
    rfl
  rw [split, ← ok, resultsOf, resultsOf, List.map_append, List.map_map, List.map_map,
    List.map_congr_left refused]
  refine congrArg _ (List.map_congr_left fun path _ => ?_)
  simp only [Function.comp_apply, Except.map, refusedAt, Outcome.isSkipped, Bool.true_eq_false,
    and_false, if_false]

/-- Where all answers are foreseen, every file has an outcome. -/
theorem exists_resultsOf {toStart : Option Nat}
    (foreseen : ∀ path ∈ started toStart paths, ∀ fault,
      ¬ Client.Unforeseen (contents.answer (c.contentAddress owner name path)) fault) :
    ∃ outcomes : List Outcome,
      resultsOf language (c.fileText contents owner name) toStart paths = outcomes.map .ok := by
  have each : ∀ x ∈ resultsOf language (c.fileText contents owner name) toStart paths,
      ∃ o, id x = .ok o ∧ True := by
    intro x hx
    rcases List.mem_append.1 hx with hx | hx
    · obtain ⟨path, hpath, rfl⟩ := List.mem_map.1 hx
      obtain ⟨o, ho⟩ := exists_resultOf (foreseen path hpath)
      exact ⟨o, ho, trivial⟩
    · obtain ⟨path, -, rfl⟩ := List.mem_map.1 hx
      exact ⟨_, rfl, trivial⟩
  obtain ⟨outcomes, all, -⟩ := exists_map_ok each
  exact ⟨outcomes, (List.map_id _).symm.trans all⟩

/-- The first answer that is unforeseen is what comes of the batch. -/
theorem resultsOf_unforeseen {toStart : Option Nat} {before rest : List String} {fault : RemoteFault}
    (order : started toStart paths = before ++ path :: rest)
    (foreseen : ∀ q ∈ before, ∀ fault,
      ¬ Client.Unforeseen (contents.answer (c.contentAddress owner name q)) fault)
    (unforeseen : Client.Unforeseen (contents.answer (c.contentAddress owner name path)) fault) :
    (resultsOf language (c.fileText contents owner name) toStart paths).mapM id = .error fault := by
  have ran : ∀ x ∈ before.map (resultOf language (c.fileText contents owner name)),
      ∃ o, id x = .ok o := by
    intro x hx
    obtain ⟨q, hq, rfl⟩ := List.mem_map.1 hx
    exact exists_resultOf (foreseen q hq)
  rw [resultsOf, order, List.map_append, List.map_cons, resultOf_unforeseen unforeseen,
    List.append_assoc, List.cons_append]
  exact mapM_eq_error ran rfl

end Answers

/-! ## Isolation -/

section Isolation

variable {c : Client} {net contents : Network}

/-- With the hosting service, the generation comes to the files of the repository that is asked for. -/
theorem Generation.Lists.names (h : (g.answeredBy c net contents).Lists w.store repository u paths)
    (hs : w.store.Consistent) :
    g.owner = some repository.owner ∧ g.name = some repository.name := by
  obtain ⟨draft, known, put⟩ := h.known
  obtain ⟨howner, hname, -⟩ := Store.putRepository_documents hs put
  change requested (.ofClient c net) g.owner g.name = .ok draft at known
  obtain ⟨o, n⟩ := requested_ofClient known
  exact ⟨o.symm.trans howner, n.symm.trans hname⟩

/-- The paths that are handled have a name. -/
theorem Generation.Lists.ne_empty (h : g.Lists w.store repository u paths) :
    ∀ path ∈ paths, path ≠ "" := by
  intro path hpath
  obtain ⟨entries, -, handled⟩ := listed_ok h.listing
  exact ne_empty_of_handles ((mem_handledPaths handled).1 hpath).2

/-- What is listed does not depend on the answers for the files' texts. -/
theorem Generation.Lists.answeredBy (h : (g.answeredBy c net contents).Lists w.store repository u paths)
    (other : Network) : (g.answeredBy c net other).Lists w.store repository u paths :=
  ⟨h.known, h.renewed, h.listing⟩

variable {p : String} (lists : (g.answeredBy c net contents).Lists w.store repository u paths)
include lists

/-- What is stored for a file does not depend on the answer for another one. -/
theorem Generation.Lists.stored_without (hs : w.store.Consistent) (hp : p ∈ paths) {q : String}
    (hq : q ∈ paths) (hqp : q ≠ p) :
    ((g.answeredBy c net contents).perform w).2.store.stored? repository.graphKey q =
      ((g.answeredBy c net (contents.without c repository.owner repository.name p)).perform
        w).2.store.stored? repository.graphKey q := by
  have named := lists.ne_empty
  obtain ⟨v, facts, stored, -⟩ := lists.ended hs
  obtain ⟨v', facts', stored', -⟩ := (lists.answeredBy (contents.without c repository.owner
    repository.name p)).ended hs
  obtain ⟨draft, -, put⟩ := lists.known
  obtain ⟨hu, -⟩ := hs.putRepository put
  rw [stored q hq, stored' q hq, facts.stored?_eq hu, facts'.stored?_eq hu]
  exact congrArg (fun fetched : Option StoredFile =>
    if repository.graphKey = repository.graphKey ∧ q ∈ started g.toStart paths then
      fetched.or (u.stored? repository.graphKey q)
    else u.stored? repository.graphKey q)
    (fetched?_without (named q hq) (named p hp) hqp).symm

/-- The outcome of a file does not depend on the answer for another one. -/
theorem Generation.Lists.outcomes_without (hs : w.store.Consistent) (hp : p ∈ paths)
    {report report' : Report}
    (reported : reportIn? ((g.answeredBy c net contents).perform w).1 = some report)
    (reported' : reportIn? ((g.answeredBy c net (contents.without c repository.owner
      repository.name p)).perform w).1 = some report') :
    report'.outcomes = report.outcomes.map
      (refusedAt p (.status 404 (c.contentUrl repository.owner repository.name p))) := by
  have named := lists.ne_empty
  have before : resultsOf g.settings.language
      (c.fileText contents repository.owner repository.name) g.toStart paths =
      report.outcomes.map .ok :=
    lists.outcomes hs reported
  have after : resultsOf g.settings.language (c.fileText (contents.without c repository.owner
      repository.name p) repository.owner repository.name) g.toStart paths =
      report'.outcomes.map .ok :=
    (lists.answeredBy (contents.without c repository.owner repository.name p)).outcomes hs reported'
  have same := (resultsOf_without named (named p hp) before).symm.trans after
  exact (List.map_injective_iff.2 (fun _ _ e => Except.ok.inj e) same).symm

end Isolation

/-- After any generations, one that comes to the files of a repository has an outcome for each of them,
in the order of the listing and each by its own answer. That is, unless there is an unforeseen answer:
the generation then ends with the first of them. In any case, what is stored for a file, and what its
outcome is, are the same as if any other file were not found. -/
theorem history_isolation (generations : List Generation) (g : Generation) (c : Client)
    (net contents : Network) {owner name : String} (howner : g.owner = some owner)
    (hname : g.name = some name) {repository : Repository} {u : Store} {paths : List String}
    (lists : (g.answeredBy c net contents).Lists (history generations).world.store repository u
      paths) :
    let w := (history generations).world
    let answered := g.answeredBy c net contents
    let result := resultOf g.settings.language (c.fileText contents owner name)
    ((∀ path ∈ started g.toStart paths, ∀ fault,
        ¬ Client.Unforeseen (contents.answer (c.contentAddress owner name path)) fault) →
      (∃ report, reportIn? (answered.perform w).1 = some report ∧
          report.outcomes.map (·.path) = paths ∧
          report.outcomes.map .ok = (started g.toStart paths).map result ++
            (paths.drop (started g.toStart paths).length).map fun path => .ok ⟨path, .skipped⟩) ∨
        ∃ place, (answered.perform w).1 = .error (.resolve (.loop place))) ∧
      (∀ before path rest fault, started g.toStart paths = before ++ path :: rest →
        (∀ q ∈ before, ∀ fault,
          ¬ Client.Unforeseen (contents.answer (c.contentAddress owner name q)) fault) →
        Client.Unforeseen (contents.answer (c.contentAddress owner name path)) fault →
        (answered.perform w).1 = .error (.remote fault)) ∧
      ∀ p ∈ paths,
        let refused := g.answeredBy c net (contents.without c owner name p)
        (∀ q ∈ paths, q ≠ p → (answered.perform w).2.store.stored? (slugOf owner name) q =
          (refused.perform w).2.store.stored? (slugOf owner name) q) ∧
        ∀ report report', reportIn? (answered.perform w).1 = some report →
          reportIn? (refused.perform w).1 = some report' →
          report'.outcomes =
            report.outcomes.map (refusedAt p (.status 404 (c.contentUrl owner name p))) := by
  intro w answered result
  have hs : w.store.Consistent := (history_recorded generations).consistent
  obtain ⟨o, n⟩ := lists.names hs
  obtain rfl : repository.owner = owner := Option.some.inj (o.symm.trans howner)
  obtain rfl : repository.name = name := Option.some.inj (n.symm.trans hname)
  obtain ⟨-, -, -, reports, fails⟩ := lists.ended hs
  refine ⟨fun foreseen => ?_, fun before path rest fault order foreseen unforeseen => ?_,
    fun p hp => ⟨fun q hq hqp => ?_, fun report report' hreport hreport' => ?_⟩⟩
  · obtain ⟨outcomes, results⟩ := exists_resultsOf foreseen
    have all := mapM_eq_ok.2 ((List.map_id _).trans results)
    rcases reports outcomes all with report | loops
    · exact .inl ⟨_, report, paths_of_resultsOf results, results.symm⟩
    · exact .inr loops
  · exact fails fault (resultsOf_unforeseen order foreseen unforeseen)
  · exact lists.stored_without hs hp hq hqp
  · exact lists.outcomes_without hs hp hreport hreport'

/-! ## Latin letters -/

/-- What the hosting service has of two files, but for the second one's text. -/
def pairTexts : List (String × String) :=
  [("h/repos/acme/tool", "\x7b\x7d"),
    ("h/repos/acme/tool/commits?per_page=1", "[\x7b\"sha\":\"c0ffee\"\x7d]"),
    ("h/repos/acme/tool/contents/src", "[\x7b\"type\":\"file\",\"path\":\"src/A.java\"\x7d," ++
      "\x7b\"type\":\"file\",\"path\":\"src/B.java\"\x7d]"),
    ("h/repos/acme/tool/contents/src/A.java", "class A \x7b\x7d")]

/-- A comment with an accented letter in Latin-1, and a class. -/
def latinOctets : Octets := [0x2F, 0x2F, 0xE9, 0x0A, 0x63, 0x6C, 0x61, 0x73, 0x73, 0x20, 0x42, 0x7B, 0x7D]

/-- The text of the second file is in Latin-1, and the service does not say what it is. -/
def latinNetwork : Network :=
  (networkOf pairTexts).answering (hostedClient.contentAddress "acme" "tool" "src/B.java")
    (.body latinOctets none)

def forcedGeneration : Generation := { Generation.ofTexts [] with force := true }

def pairGeneration (contents : Network) : Generation :=
  forcedGeneration.answeredBy hostedClient (networkOf pairTexts) contents

/-- Plain texts are foreseen. -/
theorem networkOf_foreseen {texts : List (String × String)} {address : String} {fault : RemoteFault} :
    ¬ Client.Unforeseen ((networkOf texts).answer address) fault := by
  unfold networkOf
  dsimp only
  split
  · intro bad
    cases bad with
    | intro _ json => exact absurd json (by decide)
  · intro bad
    cases bad

/-- The octets cannot be decoded. -/
def isUndecodable (octets : Octets) : Bool :=
  match Json.read octets with
  | .error (.encoding _) => true
  | _ => false

theorem latinOctets_unforeseen : ∃ fault, Client.Unforeseen (.body latinOctets none) fault := by
  have undecodable : isUndecodable latinOctets := by decide +kernel
  unfold isUndecodable at undecodable
  split at undecodable
  · next fault read => exact ⟨_, .intro (by decide) (by decide) (.encoding read)⟩
  · cases undecodable

/-- Where the second file is not found, there is a report that says so. -/
theorem pairGeneration_reports :
    (((pairGeneration (networkOf pairTexts)).perform (history []).world).1.toOption.map (·.reused),
      (reportIn? ((pairGeneration (networkOf pairTexts)).perform (history []).world).1).map
        (·.outcomes)) =
    (some false, some [⟨"src/A.java", .stored "default" 1⟩, ⟨"src/B.java",
      .failed .fetch (.fetch (.status 404 "h/repos/acme/tool/contents/src/B.java")) none⟩]) := by
  decide +kernel

theorem pairGeneration_lists :
    ∃ repository u, (pairGeneration latinNetwork).Lists (history []).world.store repository u
      ["src/A.java", "src/B.java"] := by
  obtain ⟨new, outcomes⟩ := Prod.mk.inj pairGeneration_reports
  obtain ⟨result, ok, fresh⟩ := exists_new new
  obtain ⟨repository, paths, report, u, v, made⟩ := exists_made ok fresh
  have lists : (pairGeneration (networkOf pairTexts)).Lists (history []).world.store repository u
      paths := ⟨made.known, .inl rfl, made.listing⟩
  rw [ok] at outcomes
  replace outcomes : result.report.map (·.outcomes) = some _ := outcomes
  rw [made.report_eq, Option.map_some, Option.some.injEq] at outcomes
  have listed : paths = ["src/A.java", "src/B.java"] := by
    rw [← made.outcomes.1, outcomes]
    rfl
  rw [listed] at lists
  exact ⟨repository, u, lists.answeredBy latinNetwork⟩

/-- The generation ends with the letter that cannot be decoded. -/
theorem history_isolation_of_latin_letter :
    ∃ fault, Client.Unforeseen
        (latinNetwork.answer (hostedClient.contentAddress "acme" "tool" "src/B.java")) fault ∧
      ((pairGeneration latinNetwork).perform (history []).world).1 = .error (.remote fault) := by
  obtain ⟨repository, u, lists⟩ := pairGeneration_lists
  obtain ⟨fault, unforeseen⟩ := latinOctets_unforeseen
  rw [← show latinNetwork.answer (hostedClient.contentAddress "acme" "tool" "src/B.java") =
    .body latinOctets none from Network.answering_self ..] at unforeseen
  obtain ⟨-, ends, -⟩ := history_isolation [] forcedGeneration hostedClient (networkOf pairTexts)
    latinNetwork rfl rfl lists
  have foreseen : ∀ q ∈ ["src/A.java"], ∀ other, ¬ Client.Unforeseen
      (latinNetwork.answer (hostedClient.contentAddress "acme" "tool" q)) other := by
    intro q hq other bad
    obtain rfl := List.mem_singleton.1 hq
    have elsewhere : hostedClient.contentAddress "acme" "tool" "src/A.java" ≠
        hostedClient.contentAddress "acme" "tool" "src/B.java" := by
      intro e
      have same := Client.contentAddress_injective (by decide) (by decide) e
      exact absurd same (by decide)
    rw [latinNetwork, Network.answering_other _ _ elsewhere] at bad
    exact networkOf_foreseen bad
  have answer := ends ["src/A.java"] "src/B.java" [] fault rfl foreseen unforeseen
  exact ⟨fault, unforeseen, answer⟩

/-- There is no report, though there is one where the file is not found. -/
theorem latin_letter_ends_generation :
    reportIn? ((pairGeneration latinNetwork).perform (history []).world).1 = none ∧
      (reportIn? ((pairGeneration (latinNetwork.without hostedClient "acme" "tool"
        "src/B.java")).perform (history []).world).1).isSome := by
  decide +kernel

end CodeOutline.Service
