import CodeOutline.Remote.Client
import CodeOutline.Service.Error

/-!
# Generating a report

One operation drives the whole library: it fetches what is known about a repository, and unless its
saved document is of the latest commit it ingests the repository's files, assembles and renders the
document, writes it to a file, and saves it as the repository's current document.

A generation that fails leaves what the stages before the failure have stored.
-/

namespace CodeOutline.Service

open CodeOutline.Data CodeOutline.Files CodeOutline.Graph CodeOutline.Ingest CodeOutline.Log
open CodeOutline.Remote CodeOutline.Text

/-- Where repositories come from. -/
structure Remote where
  metadata : (owner name : String) → Call Client.Metadata
  listing : (owner name basePath : String) → Call (List Client.Entry)
  text : (owner name path : String) → Call String

/-- The hosting service. -/
def Remote.ofClient (c : Client) (net : Network) : Remote where
  metadata := c.metadata net
  listing := c.listFiles net
  text := c.fileText net

/-- What a service is set up with. -/
structure Settings where
  basePath : String := defaultBasePath
  order : Report.Order := .insertion
  /-- The directory that reports are written to; none keeps them in the store only. -/
  outputDirectory : Option String := none
  /-- A single file that fails makes the generation fail. -/
  failOnErrors : Bool := false
  language : Language := .java

/-- The settings of a service. The number of workers must be positive; it is not kept, since a batch is
gone through by one worker whatever their number. -/
def Settings.make (basePath : String) (workers : Int) (orderLabel : String)
    (outputDirectory : Option String) (failOnErrors : Bool) (languageName : String) :
    Except SetupFault Settings :=
  match Language.ofName? languageName with
  | none => .error (.language languageName)
  | some language =>
    if workers < 1 then .error .workers
    else
      match Report.Order.ofLabel? orderLabel with
      | none => .error (.order orderLabel)
      | some order => .ok { basePath, order, outputDirectory, failOnErrors, language }

/-- What a generation works on. -/
structure World extends Progress where
  disk : Disk := {}

/-- What a generation makes. -/
structure Result where
  text : String
  /-- The saved document is returned as it is. -/
  reused : Bool
  snapshot : Snapshot
  /-- What became of the files; none for a document that is reused. -/
  report : Option Report
  outputPath : Option String

/-- A step of a generation. -/
abbrev Step := ExceptT Fault (StateM World)

namespace Step

/-- Reports an event. -/
def note (event : Event) : Step Unit :=
  modify fun w => { w with toProgress := w.toProgress.note event }

/-- Performs a call; a fault that callers are prepared for is turned into an error. -/
def perform {α : Type} (call : Call α) (ofFetch : FetchFault → GenerationFault) : Step α := do
  let (result, progress) := (← get).toProgress.perform call
  modify ({ · with toProgress := progress })
  match result with
  | .ok a => return a
  | .error (.fetch fault) => throw (.generation ⟨ofFetch fault, none⟩)
  | .error fault => throw (.remote fault)

/-- Fails with what is known about the files. -/
def fail {α : Type} (fault : GenerationFault) (report : Report) : Step α :=
  throw (.generation ⟨fault, some report⟩)

def setStore (store : Store) : Step Unit :=
  modify fun w => { w with store }

end Step

/-! ## Stages -/

/-- The metadata as it can be stored. -/
def draftOf (m : Client.Metadata) : Except ColumnFault RepositoryDraft := do
  let description ← m.description.column? 3
  let defaultBranch ← m.defaultBranch.column? 5
  return { owner := m.owner, name := m.name, commit := m.commit, description, defaultBranch }

/-- Fetches and stores what is known about a repository. -/
def refresh (remote : Remote) (owner name : String) : Step Repository := do
  let fetched ← Step.perform (remote.metadata owner name) .metadata
  match draftOf fetched with
  | .error fault => throw (.column fault)
  | .ok draft =>
    match (← get).store.putRepository draft with
    | .error fault => throw (.store fault)
    | .ok (repository, store) =>
      Step.setStore store
      return repository

/-- The paths of the listed files that the language handles. -/
def handledPaths (language : Language) (entries : List Client.Entry) :
    Except RemoteFault (List String) := do
  let paths ← (entries.filter (·.kind = "file")).mapM fun e =>
    match e.path with
    | .text path => Except.ok path
    | _ => .error (.shape .notAnObject)
  return paths.filter language.handles

/-- Removes what belongs to files that are no longer listed. -/
def prune (key : String) (paths : List String) : Step Unit := do
  let (files, store) := (← get).store.deleteFilesExcept key paths
  let (namespaces, store) := store.deleteEmptyNamespaces key
  Step.setStore store
  if files ≠ 0 || namespaces ≠ 0 then
    Step.note (info "stale_facts_pruned" [("files", .int files), ("namespaces", .int namespaces)])

/-- Lists and ingests the files of a repository. -/
def ingestRepository (remote : Remote) (settings : Settings) (repository : Repository)
    (toStart : Option Nat) : Step Report := do
  let key := repository.graphKey
  let entries ← Step.perform
    (remote.listing repository.owner repository.name settings.basePath) .listing
  match handledPaths settings.language entries with
  | .error fault => throw (.remote fault)
  | .ok paths =>
    Step.note (info "regeneration_started"
      [("commit", .text repository.commit), ("files", .int paths.length)])
    let (result, progress) := (← get).toProgress.ingestAll settings.language key paths
      (remote.text repository.owner repository.name) toStart
    modify ({ · with toProgress := progress })
    match result with
    | .error .blankRepository => throw .blankName
    | .error (.remote fault) => throw (.remote fault)
    | .ok report =>
      if report.skipped ≠ 0 then Step.fail .cancelled report
      if !paths.isEmpty && report.stored = 0 then Step.fail .nothingIngested report
      if report.failed ≠ 0 && settings.failOnErrors then Step.fail .filesFailed report
      prune key paths
      return report

/-- The heading of a repository's report. -/
def headingOf (r : Repository) : Report.Heading := ⟨r.owner, r.name, r.description⟩

/-- Writes a report below a directory. The part of the temporary name that no other file has is
`random`. -/
def writeReport (directory : String) (repository : Repository) (text random : String)
    (report : Report) : Step String := do
  let disk := (← get).disk
  match reportPath directory repository.owner repository.name with
  | .error fault => Step.fail (.exporting (.path fault)) report
  | .ok path =>
    match disk.outputPlace path.text none with
    | .error (.resolve (.loop place)) => throw (.resolve (.loop place))
    | .error fault => Step.fail (.exporting (.output fault)) report
    | .ok place =>
      let (result, disk) := disk.write ⟨"/", place⟩ text random
      modify ({ · with disk })
      match result with
      | .error fault => Step.fail (.exporting (.write fault)) report
      | .ok () => return place.text

/-- Assembles, renders, writes and saves a repository's document. -/
def exportDocument (settings : Settings) (random : String) (repository : Repository)
    (report : Report) : Step Result := do
  let store := (← get).store
  let (assembled, _, events) := Report.assemble .store (headingOf repository)
    (store.namespacesOf repository.graphKey) store
  events.forM Step.note
  match assembled with
  | .error fault => Step.fail (.assembly fault) report
  | .ok tree =>
    let text := tree.render settings.order
    let outputPath ← settings.outputDirectory.mapM
      (writeReport · repository text random report)
    let draft : SnapshotDraft :=
      { repositoryId := repository.id, commit := repository.commit, payload := text
        exportPath := outputPath, namespaceIds := tree.namespaces.map (·.node.id) }
    match (← get).store.saveSnapshot draft with
    | .error fault => throw (.store fault)
    | .ok (snapshot, store) =>
      Step.setStore store
      Step.note (info "snapshot_replaced" [("commit", .text snapshot.commit),
        ("namespaces", .int snapshot.namespaceIds.length), ("summary", .text report.summary)])
      return { text, reused := false, snapshot, report := some report, outputPath }

/-- The saved document of a repository, if it is of the latest commit. -/
def freshSnapshot? (s : Store) (repository : Repository) : Option Snapshot :=
  (s.currentSnapshot? repository.id).filter (·.commit = repository.commit)

/-- Generates the report of a repository, or returns the saved one if that is of the latest commit and
no new one is asked for. -/
def generateNamed (remote : Remote) (settings : Settings) (random owner name : String)
    (force : Bool) (toStart : Option Nat) : Step Result := do
  let repository ← refresh remote owner name
  match freshSnapshot? (← get).store repository, force with
  | some snapshot, false =>
    Step.note (info "snapshot_reused" [("commit", .text snapshot.commit)])
    return { text := snapshot.payload, reused := true, snapshot, report := none
             outputPath := snapshot.exportPath.bind fun path =>
               if path.isEmpty then none else some (Path.ofString path).text }
  | _, _ =>
    let report ← ingestRepository remote settings repository toStart
    exportDocument settings random repository report

/-- The events reported since the given number of them, with the repository among their fields. -/
def inContext (slug : String) (before : Nat) (w : World) : World :=
  { w with events := w.events.take before ++
      (w.events.drop before).map (·.within [("repo", .text slug)]) }

/-- Generates the report of a repository. `toStart` is the number of files that may be ingested before
the generation is cancelled, where it is. -/
def generate (remote : Remote) (settings : Settings) (random : String) (owner name : Option String)
    (force : Bool) (toStart : Option Nat) (w : World) : Except Fault Result × World :=
  match owner, name with
  | some owner, some name =>
    if isBlankText owner || isBlankText name then (.error .blankName, w)
    else
      let (result, after) := (generateNamed remote settings random owner name force toStart).run w
      (result, inContext (slugOf owner name) w.events.length after)
  | _, _ => (.error .blankName, w)

end CodeOutline.Service
