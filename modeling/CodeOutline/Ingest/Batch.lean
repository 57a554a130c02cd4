import CodeOutline.Ingest.Outcome
import CodeOutline.Language
import CodeOutline.Remote.Network
import CodeOutline.Text.Sha256

/-!
# Ingesting files

A file's text becomes stored facts: its namespace is read from the text, its types are parsed, the
namespace is made with its chain, and everything stored for the path is replaced.

A batch goes through its files in the order given. From a point on it may be told to stop: the files
not started by then are skipped. This is the work of one worker: the files that several workers have
in hand at once, and the order in which their operations come to the store, are left out.
-/

namespace CodeOutline.Ingest

open CodeOutline.Data CodeOutline.Graph CodeOutline.Log CodeOutline.Remote CodeOutline.Text

/-- A store at work: what it holds, the requests made for it, and the events reported. -/
structure Progress where
  store : Store := {}
  requests : List Request := []
  events : List Event := []

namespace Progress

def note (p : Progress) (event : Event) : Progress := { p with events := p.events ++ [event] }

/-- The result of a call, with its requests and events added. -/
def perform {α : Type} (p : Progress) (call : Call α) : Except RemoteFault α × Progress :=
  (call.result,
    { p with requests := p.requests ++ call.requests, events := p.events ++ call.events })

/-- The namespace of a name, made where it is not there yet. -/
def getNamespace (p : Progress) (repository name : String) :
    Except HierarchyFault Namespace × Progress :=
  let (result, store, events) := getOrCreate .plain repository (some name) p.store
  (result, { p with store, events := p.events ++ events })

end Progress

/-- The outcome of a file that failed, with the event that reports it. -/
def Progress.failed (p : Progress) (repository path : String) (stage : Stage) (cause : Cause)
    (namespaceName : Option String) : Outcome × Progress :=
  (⟨path, .failed stage cause namespaceName⟩,
    p.note (warning "file_failed" [("repo", .text repository), ("path", .text path),
      ("stage", .text stage.name), ("error", .text cause.message)]))

/-- Stores the types of a file under a namespace. -/
def Progress.persist (p : Progress) (repository path text namespaceName : String)
    (types : List TypeFact) : Outcome × Progress :=
  match p.getNamespace repository namespaceName with
  | (.error fault, p) => p.failed repository path .persist (.hierarchy fault) (some namespaceName)
  | (.ok node, p) =>
    let file : FileDraft := ⟨repository, node.id, path, Sha256.hex text⟩
    match p.store.replaceFileFacts file (types.map TypeFact.draft) with
    | .error fault => p.failed repository path .persist (.store fault) (some namespaceName)
    | .ok (_, store) =>
      (⟨path, .stored node.name types.length⟩,
        { p with store }.note (info "file_ingested" [("repo", .text repository),
          ("path", .text path), ("namespace", .text node.name), ("types", .int types.length)]))

/-- Ingests the text of a file. -/
def Progress.ingestText (p : Progress) (language : Language) (repository path text : String) :
    Outcome × Progress :=
  let namespaceName := language.namespaceOf text
  match language.typesOf text with
  | .error error => p.failed repository path .parse (.source error) (some namespaceName)
  | .ok types => p.persist repository path text namespaceName types

/-- Ingests one file of a repository; a repository must have a name. -/
def Progress.ingest (p : Progress) (language : Language) (repository path text : String) :
    Except HierarchyFault (Outcome × Progress) :=
  if isBlankText repository then .error .blankRepository
  else .ok (p.ingestText language repository path text)

/-- A file of a batch, and the call that fetches its text when its turn comes. A file that stands in a
batch several times is fetched each time, and may have another text then. -/
structure Delivery where
  path : String
  call : Call String

/-- Fetches and ingests one file. A fault that nobody expects is passed on. -/
def Progress.ingestDelivery (p : Progress) (language : Language) (repository : String) (d : Delivery) :
    Except RemoteFault Outcome × Progress :=
  match p.perform d.call with
  | (.ok text, p) =>
    let (outcome, p) := p.ingestText language repository d.path text
    (.ok outcome, p)
  | (.error (.fetch fault), p) =>
    let (outcome, p) := p.failed repository d.path .fetch (.fetch fault) none
    (.ok outcome, p)
  | (.error fault, p) => (.error fault, p)

/-- Goes through the files of a batch. `toStart` is the number of files that may still be started,
where that is limited. -/
def Progress.ingestDeliveries (p : Progress) (language : Language) (repository : String)
    (toStart : Option Nat) : List Delivery → List (Except RemoteFault Outcome) × Progress
  | [] => ([], p)
  | d :: rest =>
    if toStart = some 0 then
      let (results, p) := p.ingestDeliveries language repository toStart rest
      (.ok ⟨d.path, .skipped⟩ :: results, p)
    else
      let (result, p) := p.ingestDelivery language repository d
      let (results, p) := p.ingestDeliveries language repository (toStart.map (· - 1)) rest
      (result :: results, p)

/-- Why a batch has no report. -/
inductive BatchFault where
  | blankRepository
  | remote (fault : RemoteFault)
  deriving Repr, DecidableEq

/-- Ingests a batch of files. All files are gone through even if there is a fault to pass on; the
first such fault is then the batch's. -/
def Progress.ingestBatch (p : Progress) (language : Language) (repository : String)
    (deliveries : List Delivery) (toStart : Option Nat) : Except BatchFault Report × Progress :=
  if isBlankText repository then (.error .blankRepository, p)
  else
    let (results, p) := p.ingestDeliveries language repository toStart deliveries
    match results.mapM id with
    | .error fault => (.error (.remote fault), p)
    | .ok outcomes =>
      let report : Report := ⟨repository, outcomes⟩
      (.ok report, p.note (info "ingestion_finished" [("repo", .text repository),
        ("summary", .text report.summary)]))

/-- Ingests the files at some paths, each with the text that is there. -/
def Progress.ingestAll (p : Progress) (language : Language) (repository : String)
    (paths : List String) (fetch : String → Call String) (toStart : Option Nat) :
    Except BatchFault Report × Progress :=
  p.ingestBatch language repository (paths.map fun path => ⟨path, fetch path⟩) toStart

end CodeOutline.Ingest
