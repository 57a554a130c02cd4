import CodeOutline.Proofs.Remote.Authorization
import CodeOutline.Proofs.Service.Stage

/-!
# Tokens and generations

Requests are written down and never read again, so what is done with other requests differs in nothing
but them. Ingestion goes through files in that way (`Progress.ingestDeliveries_relabel`), and so does
each stage of a generation (`Step.Alike`). A client's token changes its requests and nothing else; by
induction on the tasks, two tokens are therefore told apart by the authorization of the requests alone
(`runTasks_token`).
-/

namespace CodeOutline.Ingest

open CodeOutline.Graph CodeOutline.Log CodeOutline.Remote

/-! ## Ingestion with other requests -/

namespace Progress

variable (f : Request → Request)

/-- The same work with its requests changed. -/
def relabel (p : Progress) : Progress := { p with requests := p.requests.map f }

variable (p : Progress) (language : Language) (repository path text : String)

theorem perform_relabel {α : Type} (call : Call α) :
    (p.relabel f).perform (call.relabel f) = (p.perform call).map id (relabel f) := by
  simp only [perform, relabel, Call.relabel, Prod.map, List.map_append, id]

theorem getNamespace_relabel (name : String) :
    (p.relabel f).getNamespace repository name =
      (p.getNamespace repository name).map id (relabel f) := rfl

theorem persist_relabel (namespaceName : String) (types : List TypeFact) :
    (p.relabel f).persist repository path text namespaceName types =
      (p.persist repository path text namespaceName types).map id (relabel f) := by
  rw [persist, persist, getNamespace_relabel]
  rcases p.getNamespace repository namespaceName with ⟨result, q⟩
  cases result with
  | error fault => rfl
  | ok node =>
    dsimp only [Prod.map, id, relabel]
    cases q.store.replaceFileFacts ⟨repository, node.id, path, Text.Sha256.hex text⟩
      (types.map TypeFact.draft) <;> rfl

theorem ingestText_relabel :
    (p.relabel f).ingestText language repository path text =
      (p.ingestText language repository path text).map id (relabel f) := by
  unfold ingestText
  dsimp only
  cases language.typesOf text with
  | error error => rfl
  | ok types => exact persist_relabel ..

end Progress

/-- A file of a batch with the requests of its call changed. -/
def Delivery.relabel (f : Request → Request) (d : Delivery) : Delivery := ⟨d.path, d.call.relabel f⟩

namespace Progress

variable (f : Request → Request) (p : Progress) (language : Language) (repository : String)

theorem ingestDelivery_relabel (d : Delivery) :
    (p.relabel f).ingestDelivery language repository (d.relabel f) =
      (p.ingestDelivery language repository d).map id (relabel f) := by
  unfold ingestDelivery Delivery.relabel
  dsimp only
  rw [perform_relabel]
  rcases p.perform d.call with ⟨result, q⟩
  cases result with
  | ok text =>
    dsimp only [Prod.map, id]
    rw [ingestText_relabel]
    rfl
  | error fault => cases fault <;> rfl

theorem ingestDeliveries_relabel (toStart : Option Nat) (deliveries : List Delivery) :
    (p.relabel f).ingestDeliveries language repository toStart (deliveries.map (·.relabel f)) =
      (p.ingestDeliveries language repository toStart deliveries).map id (relabel f) := by
  induction deliveries generalizing p toStart with
  | nil => rfl
  | cons d rest ih =>
    rw [List.map_cons, ingestDeliveries, ingestDeliveries]
    split
    · rw [ih]
      rfl
    · rw [ingestDelivery_relabel]
      dsimp only [Prod.map, id]
      rw [ih]
      rfl

theorem ingestAll_relabel (paths : List String) (fetch : String → Call String)
    (toStart : Option Nat) :
    (p.relabel f).ingestAll language repository paths (fun path => (fetch path).relabel f) toStart =
      (p.ingestAll language repository paths fetch toStart).map id (relabel f) := by
  have deliveries : (paths.map fun path => (⟨path, (fetch path).relabel f⟩ : Delivery)) =
      (paths.map fun path => (⟨path, fetch path⟩ : Delivery)).map (·.relabel f) := by
    rw [List.map_map]
    rfl
  unfold ingestAll ingestBatch
  split
  · rfl
  · rw [deliveries, ingestDeliveries_relabel]
    dsimp only [Prod.map, id]
    split <;> rfl

end Progress

end CodeOutline.Ingest

namespace CodeOutline.Service

open CodeOutline.Data CodeOutline.Files CodeOutline.Graph CodeOutline.Ingest CodeOutline.Log
open CodeOutline.Remote CodeOutline.Text

/-! ## Steps with other requests -/

/-- The same world with its requests changed. -/
def World.relabel (f : Request → Request) (w : World) : World :=
  { w with toProgress := w.toProgress.relabel f }

@[simp]
theorem World.relabel_store (f : Request → Request) (w : World) : (w.relabel f).store = w.store := rfl

@[simp]
theorem World.relabel_disk (f : Request → Request) (w : World) : (w.relabel f).disk = w.disk := rfl

@[simp]
theorem World.relabel_toProgress (f : Request → Request) (w : World) :
    (w.relabel f).toProgress = w.toProgress.relabel f := rfl

/-- The same repositories with the requests of each call changed. -/
def Remote.relabel (f : Request → Request) (remote : Remote) : Remote where
  metadata owner name := (remote.metadata owner name).relabel f
  listing owner name basePath := (remote.listing owner name basePath).relabel f
  text owner name path := (remote.text owner name path).relabel f

theorem Remote.relabel_text (f : Request → Request) (remote : Remote) (owner name : String) :
    (remote.relabel f).text owner name = fun path => (remote.text owner name path).relabel f := rfl

/-- The second step does with changed requests what the first one does. -/
def Step.Alike {α : Type} (f : Request → Request) (x x' : Step α) : Prop :=
  ∀ w : World, x'.run (w.relabel f) = (x.run w).map id (World.relabel f)

namespace Step.Alike

variable {α β : Type} {f : Request → Request}

theorem pure (a : α) : Alike f (Pure.pure a : Step α) (Pure.pure a) := fun _ => rfl

theorem throw (fault : Fault) : Alike f (throw fault : Step α) (throw fault) := fun _ => rfl

theorem note (event : Event) : Alike f (Step.note event) (Step.note event) := fun _ => rfl

theorem setStore (s : Store) : Alike f (Step.setStore s) (Step.setStore s) := fun _ => rfl

theorem fail (fault : GenerationFault) (report : Report) :
    Alike f (Step.fail fault report : Step α) (Step.fail fault report) := fun _ => rfl

theorem progress (p : Progress) :
    Alike f (modify ({ · with toProgress := p })) (modify ({ · with toProgress := p.relabel f })) :=
  fun _ => rfl

theorem disk (d : Disk) :
    Alike f (modify ({ · with disk := d })) (modify ({ · with disk := d })) := fun _ => rfl

theorem bind {x x' : Step α} {k k' : α → Step β} (hx : Alike f x x')
    (hk : ∀ a, Alike f (k a) (k' a)) : Alike f (x >>= k) (x' >>= k') := by
  intro w
  rw [run_bind, run_bind, hx w]
  rcases x.run w with ⟨_ | a, w'⟩
  · rfl
  · exact hk a w'

theorem get {k k' : World → Step α} (hk : ∀ w, Alike f (k w) (k' (w.relabel f))) :
    Alike f (get >>= k) (get >>= k') := by
  intro w
  rw [run_bind, run_bind, run_get, run_get]
  exact hk w w

theorem ite {p : Prop} [Decidable p] {x x' y y' : Step α} (hx : Alike f x x') (hy : Alike f y y') :
    Alike f (if p then x else y) (if p then x' else y') := by
  split
  · exact hx
  · exact hy

/-- A check that can end the generation, before what comes next. -/
theorem check {p : Prop} {_ : Decidable p} (fault : GenerationFault) (report : Report)
    {y y' : Step α} (hy : Alike f y y') :
    Alike f
      (do
        if p then Step.fail fault report
        y)
      (do
        if p then Step.fail fault report
        y') :=
  ite (bind (fail fault report) fun _ => hy) hy

theorem notes (events : List Event) :
    Alike f (events.forM Step.note) (events.forM Step.note) := by
  induction events with
  | nil => exact pure _
  | cons event rest ih => exact bind (note event) fun _ => ih

theorem mapM {x x' : β → Step α} (hx : ∀ b, Alike f (x b) (x' b)) (value : Option β) :
    Alike f (value.mapM x) (value.mapM x') := by
  cases value with
  | none => exact pure _
  | some b => exact bind (hx b) fun _ => pure _

theorem perform (call : Call α) (ofFetch : FetchFault → GenerationFault) :
    Alike f (Step.perform call ofFetch) (Step.perform (call.relabel f) ofFetch) := by
  refine get fun w => ?_
  rw [World.relabel_toProgress, Progress.perform_relabel]
  refine bind (progress _) fun _ => ?_
  dsimp only [Prod.map, id]
  split
  · exact pure _
  · exact throw _
  · exact throw _

end Step.Alike

/-! ## Generations with other requests -/

variable (f : Request → Request)

theorem refresh_alike (remote : Remote) (owner name : String) :
    Step.Alike f (refresh remote owner name) (refresh (remote.relabel f) owner name) := by
  refine .bind (.perform _ _) fun m => ?_
  cases draftOf m with
  | error fault => exact .throw _
  | ok draft =>
    refine .get fun w => ?_
    rw [World.relabel_store]
    cases w.store.putRepository draft with
    | error fault => exact .throw _
    | ok put => exact .bind (.setStore _) fun _ => .pure _

theorem prune_alike (key : String) (paths : List String) :
    Step.Alike f (prune key paths) (prune key paths) := by
  refine .get fun w => ?_
  rw [World.relabel_store]
  refine .bind (.setStore _) fun _ => ?_
  exact .ite (.note _) (.pure _)

theorem ingestRepository_alike (remote : Remote) (settings : Settings) (repository : Repository)
    (toStart : Option Nat) :
    Step.Alike f (ingestRepository remote settings repository toStart)
      (ingestRepository (remote.relabel f) settings repository toStart) := by
  refine .bind (.perform _ _) fun entries => ?_
  cases handledPaths settings.language entries with
  | error fault => exact .throw _
  | ok paths =>
    refine .bind (.note _) fun _ => .get fun w => ?_
    rw [World.relabel_toProgress, Remote.relabel_text, Progress.ingestAll_relabel]
    rcases w.toProgress.ingestAll settings.language repository.graphKey paths
      (remote.text repository.owner repository.name) toStart with ⟨result, p⟩
    refine .bind (.progress p) fun _ => ?_
    dsimp only [Prod.map, id]
    split
    · exact .throw _
    · exact .throw _
    · next report =>
      refine .check _ report (.check _ report (.check _ report ?_))
      exact .bind (prune_alike f repository.graphKey paths) fun _ => .pure report

theorem writeReport_alike (directory : String) (repository : Repository) (text random : String)
    (report : Report) :
    Step.Alike f (writeReport directory repository text random report)
      (writeReport directory repository text random report) := by
  refine .get fun w => ?_
  rw [World.relabel_disk]
  cases reportPath directory repository.owner repository.name with
  | error fault => exact .fail _ _
  | ok path =>
    dsimp only
    split
    · exact .throw _
    · exact .fail _ _
    · refine .bind (.disk _) fun _ => ?_
      split
      · exact .fail _ _
      · exact .pure _

theorem exportDocument_alike (settings : Settings) (random : String) (repository : Repository)
    (report : Report) :
    Step.Alike f (exportDocument settings random repository report)
      (exportDocument settings random repository report) := by
  refine .get fun w => ?_
  rw [World.relabel_store]
  dsimp only
  refine .bind (.notes _) fun _ => ?_
  split
  · exact .fail _ _
  · refine .bind (.mapM (fun d => writeReport_alike f d repository _ random report) _)
      fun outputPath => .get fun w => ?_
    rw [World.relabel_store]
    split
    · exact .throw _
    · exact .bind (.setStore _) fun _ => .bind (.note _) fun _ => .pure _

theorem generateNamed_alike (remote : Remote) (settings : Settings) (random owner name : String)
    (force : Bool) (toStart : Option Nat) :
    Step.Alike f (generateNamed remote settings random owner name force toStart)
      (generateNamed (remote.relabel f) settings random owner name force toStart) := by
  refine .bind (refresh_alike f remote owner name) fun repository => .get fun w => ?_
  rw [World.relabel_store]
  split
  · exact .bind (.note _) fun _ => .pure _
  · exact .bind (ingestRepository_alike f remote settings repository toStart) fun report =>
      exportDocument_alike f settings random repository report

theorem generate_relabel (remote : Remote) (settings : Settings) (random : String)
    (owner name : Option String) (force : Bool) (toStart : Option Nat) (w : World) :
    generate (remote.relabel f) settings random owner name force toStart (w.relabel f) =
      (generate remote settings random owner name force toStart w).map id (World.relabel f) := by
  unfold generate
  split
  · split
    · rfl
    · rw [generateNamed_alike f]
      -- Events are put into context by their number, in which requests have no part.
      rfl
  · rfl

/-! ## Tasks -/

/-- What a client is asked, or a service that works with the client. -/
inductive Inquiry where
  | metadata (owner name : String)
  | commit (owner name : String)
  | listing (owner name basePath : String)
  | text (owner name path : String)
  | generation (settings : Settings) (random : String) (owner name : Option String) (force : Bool)
    (toStart : Option Nat)

/-- An inquiry, and the service that it is put to. -/
structure Task where
  network : Network
  apiUrl : String
  timeout : Datum
  inquiry : Inquiry

/-- What comes of a task. -/
inductive Reply where
  /-- There is no client for the address. -/
  | refused (fault : AddressFault)
  | metadata (answer : Except RemoteFault Client.Metadata)
  | commit (answer : Except RemoteFault String)
  | listing (answer : Except RemoteFault (List Client.Entry))
  | text (answer : Except RemoteFault String)
  | generation (answer : Except Fault Result)

/-- The message of a reply that is an error. -/
def Reply.message? : Reply → Option String
  | refused fault => some fault.message
  | metadata answer => (faultOf? answer).map RemoteFault.message
  | commit answer => (faultOf? answer).map RemoteFault.message
  | listing answer => (faultOf? answer).map RemoteFault.message
  | text answer => (faultOf? answer).map RemoteFault.message
  | generation answer => (faultOf? answer).map Fault.message

/-- The result of a call, with its requests and events added. -/
def World.perform {α : Type} (w : World) (call : Call α) : Except RemoteFault α × World :=
  (w.toProgress.perform call).map id ({ w with toProgress := · })

/-- What a client makes of an inquiry. -/
def Inquiry.answer (c : Client) (net : Network) (w : World) : Inquiry → Reply × World
  | metadata owner name => (w.perform (c.metadata net owner name)).map .metadata id
  | commit owner name => (w.perform (c.latestCommit net owner name)).map .commit id
  | listing owner name basePath =>
    (w.perform (c.listFiles net owner name basePath)).map .listing id
  | text owner name path => (w.perform (c.fileText net owner name path)).map .text id
  | generation settings random owner name force toStart =>
    (generate (.ofClient c net) settings random owner name force toStart w).map .generation id

/-- Makes a client with the token and puts the inquiry to it. -/
def Task.run (token : Option String) (t : Task) (w : World) : Reply × World :=
  match Client.make token t.apiUrl t.timeout with
  | .error fault => (.refused fault, w)
  | .ok c => t.inquiry.answer c t.network w

/-- Tasks one after the other, each in the world that the one before it has left. -/
def runTasks (token : Option String) : List Task → World → List Reply × World
  | [], w => ([], w)
  | t :: rest, w =>
    let (reply, w) := t.run token w
    let (replies, w) := runTasks token rest w
    (reply :: replies, w)

/-! ## What the token is seen in -/

theorem World.perform_relabel {α : Type} (w : World) (call : Call α) :
    (w.relabel f).perform (call.relabel f) = (w.perform call).map id (World.relabel f) := by
  rw [World.perform, World.relabel_toProgress, Progress.perform_relabel]
  rfl

section

variable {token : String} (h : token ≠ "")

include h

theorem Remote.ofClient_withToken (c : Client) (net : Network) :
    Remote.ofClient (c.withToken token) net =
      (Remote.ofClient c net).relabel (Request.withToken token) := by
  unfold Remote.ofClient Remote.relabel
  congr 1
  · funext owner name
    exact Client.metadata_withToken h c net owner name
  · funext owner name basePath
    exact Client.listFiles_withToken h c net owner name basePath
  · funext owner name path
    exact Client.fileText_withToken h c net owner name path

theorem Inquiry.answer_withToken (c : Client) (net : Network) (w : World) (inquiry : Inquiry) :
    inquiry.answer (c.withToken token) net (w.relabel (Request.withToken token)) =
      (inquiry.answer c net w).map id (World.relabel (Request.withToken token)) := by
  cases inquiry with
  | metadata owner name =>
    rw [answer, Client.metadata_withToken h, World.perform_relabel]
    rfl
  | commit owner name =>
    rw [answer, Client.latestCommit_withToken h, World.perform_relabel]
    rfl
  | listing owner name basePath =>
    rw [answer, Client.listFiles_withToken h, World.perform_relabel]
    rfl
  | text owner name path =>
    rw [answer, Client.fileText_withToken h, World.perform_relabel]
    rfl
  | generation settings random owner name force toStart =>
    rw [answer, Remote.ofClient_withToken h, generate_relabel]
    rfl

/-- A task with a token does what it does without one, and its requests have the token. -/
theorem Task.run_withToken (t : Task) (w : World) :
    t.run (some token) (w.relabel (Request.withToken token)) =
      (t.run none w).map id (World.relabel (Request.withToken token)) := by
  have made : Client.make (some token) t.apiUrl t.timeout =
      (Client.make none t.apiUrl t.timeout).map (Client.withToken token) := by
    unfold Client.make
    cases checkAddress t.apiUrl <;> rfl
  rw [Task.run, Task.run, made]
  cases Client.make none t.apiUrl t.timeout with
  | error fault => rfl
  | ok c => exact Inquiry.answer_withToken h c t.network w t.inquiry

theorem runTasks_withToken (tasks : List Task) (w : World) :
    runTasks (some token) tasks (w.relabel (Request.withToken token)) =
      (runTasks none tasks w).map id (World.relabel (Request.withToken token)) := by
  induction tasks generalizing w with
  | nil => rfl
  | cons t rest ih =>
    rw [runTasks, runTasks, Task.run_withToken h]
    dsimp only [Prod.map, id]
    rw [ih]
    rfl

end

/-- Whatever the tasks are, two tokens are told apart by nothing but the authorization of the requests,
which is the token itself. -/
theorem runTasks_token {token token' : String} (h : token ≠ "") (h' : token' ≠ "")
    (tasks : List Task) (store : Store) (disk : Disk) :
    let run := runTasks (some token) tasks { store, disk }
    let run' := runTasks (some token') tasks { store, disk }
    (run.1 = run'.1 ∧ run.1.map Reply.message? = run'.1.map Reply.message?) ∧
      (run.2.events = run'.2.events ∧ run.2.store = run'.2.store ∧ run.2.disk = run'.2.disk) ∧
      List.Forall₂ (fun r r' =>
          (r.url = r'.url ∧ r.accept = r'.accept ∧ r.userAgent = r'.userAgent ∧
            r.timeout = r'.timeout) ∧
          r.authorization = some ("Bearer " ++ token) ∧
          r'.authorization = some ("Bearer " ++ token'))
        run.2.requests run'.2.requests := by
  intro run run'
  have first : run = (runTasks none tasks { store, disk }).map id
      (World.relabel (Request.withToken token)) :=
    runTasks_withToken h tasks { store, disk }
  have second : run' = (runTasks none tasks { store, disk }).map id
      (World.relabel (Request.withToken token')) :=
    runTasks_withToken h' tasks { store, disk }
  -- Both are the run without a token, with other requests.
  obtain ⟨replies, w⟩ := runTasks none tasks { store, disk }
  rw [first, second]
  dsimp only [Prod.map, id, World.relabel, Progress.relabel]
  refine ⟨⟨rfl, rfl⟩, ⟨rfl, rfl, rfl⟩, ?_⟩
  refine List.forall₂_map_left_iff.2 (List.forall₂_map_right_iff.2 (List.forall₂_same.2 ?_))
  exact fun r _ => ⟨⟨rfl, rfl, rfl, rfl⟩, rfl, rfl⟩

/-- A repository with an empty directory and a file, about which nothing else is known. -/
def bareNetwork : Network where
  answer url :=
    match [("https://h/repos/acme/tool/contents/src", "application/json", "[]"),
      ("https://h/repos/acme/tool/contents/A.java", "text/plain", "class A")].lookup url with
    | some (media, text) => .body (text.toList.flatMap String.utf8EncodeChar) (some media)
    | none => .status 404
  depth := 1

/-- Two tasks that succeed and two that fail. -/
def bareTasks : List Task := [
  ⟨bareNetwork, "https://h", .int 30, .listing "acme" "tool" "src"⟩,
  ⟨bareNetwork, "https://h/", .int 5, .text "acme" "tool" "A.java"⟩,
  ⟨bareNetwork, "https://h", .int 30, .generation {} "r" (some "acme") (some "tool") true none⟩,
  ⟨bareNetwork, "ftp://h", .int 30, .commit "acme" "tool"⟩]

theorem runTasks_token_of_failures :
    let run := runTasks (some "t1") bareTasks {}
    let run' := runTasks (some "t2") bareTasks {}
    (run.1.map Reply.message? = [none, none,
        some "metadata: GitHub API returned HTTP 404 for 'https://h/repos/acme/tool'",
        some "Unsupported API URL 'ftp://h'. Only https:// and http:// are allowed."] ∧
      run.2.events.map (·.name) = ["files_listed", "fetch_metadata"] ∧
      run.2.requests.map (fun r => (r.url, r.authorization)) =
        [("https://h/repos/acme/tool/contents/src", some "Bearer t1"),
          ("https://h/repos/acme/tool/contents/A.java", some "Bearer t1"),
          ("https://h/repos/acme/tool", some "Bearer t1")]) ∧
      run.1 = run'.1 ∧ run.2.events = run'.2.events ∧
      List.Forall₂ (fun r r' => r.url = r'.url ∧ r'.authorization = some "Bearer t2")
        run.2.requests run'.2.requests := by
  intro run run'
  obtain ⟨⟨replies, -⟩, ⟨events, -⟩, requests⟩ :=
    runTasks_token (show "t1" ≠ "" by decide) (show "t2" ≠ "" by decide) bareTasks {} {}
  exact ⟨by decide +kernel, replies, events, requests.imp fun _ _ h => ⟨h.1.1, h.2.2⟩⟩

end CodeOutline.Service
