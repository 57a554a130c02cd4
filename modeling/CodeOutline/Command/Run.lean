import CodeOutline.Command.Arguments
import CodeOutline.Config.Load
import CodeOutline.Console.Table
import CodeOutline.Log.Line
import CodeOutline.Service.Generate

/-!
# Running commands

A command works on files and databases, asks the network where it has to, and writes to the console.
It ends with an exit code: zero, one for a failure that it has explained, and two for words that are
no command line. A fault that no command is prepared for ends it too.
-/

namespace CodeOutline.Command

open CodeOutline.Config CodeOutline.Console CodeOutline.Data CodeOutline.Files CodeOutline.Graph
open CodeOutline.Log CodeOutline.Remote CodeOutline.Text

/-- The version of the program. -/
def programVersion : String := "0.1.0"

/-- What a command finds around it and cannot change. -/
structure Surroundings where
  environment : Environment := []
  network : Network
  /-- The user's settings file. -/
  userConfig : Path
  /-- The size of a database in megabytes, as it is shown. -/
  sizeText : Path → String
  /-- The time when a document was saved, as it is shown. -/
  savedText : Snapshot → String
  /-- The part of a temporary file's name that no other file has. -/
  random : String

/-- Files and databases. A database has a file, of which nothing is known but its place. -/
structure Machine where
  disk : Disk := {}
  databases : List (Place × Store) := []

/-- Why a database cannot be opened. -/
inductive DatabaseFault where
  | unopenable
  | notADatabase
  deriving Repr, DecidableEq

/-- A fault that no command is prepared for. -/
inductive Crash where
  | load (f : LoadFault)
  | database (f : DatabaseFault)
  | service (f : Service.Fault)
  | markup (f : MarkupFault)

def DatabaseFault.message : DatabaseFault → String
  | unopenable => "unable to open database file"
  | notADatabase => "file is not a database"

def Crash.message : Crash → String
  | load f => f.message
  | database f => f.message
  | service f => f.message
  | markup f => f.message

/-- Why a command ends early. -/
inductive Stop where
  | exit (code : Nat)
  | crash (c : Crash)

/-- A command on the way. -/
structure Session where
  machine : Machine
  output : String := ""
  warnings : List UnknownKey := []
  requests : List Remote.Request := []

/-- A run of the program, which may stop early and keeps what was done until then. -/
abbrev Run := ExceptT Stop (StateM Session)

namespace Run

/-- Adds to what the run prints. -/
def write (text : String) : Run Unit := modify fun s => { s with output := s.output ++ text }

/-- Writes a marked-up text to the console. -/
def print (markup : String) : Run Unit := do
  match printed markup with
  | .ok text => write text
  | .error f => throw (.crash (.markup f))

/-- A marked-up text as a block. -/
def block (markup : String) : Run Block :=
  match shownLines markup with
  | .ok b => return b
  | .error f => throw (.crash (.markup f))

/-- A marked-up text as one line. -/
def line (markup : String) : Run (List Char) := do return (← block markup).flatten

/-- Writes a block to the console. -/
def printBlock (b : Block) : Run Unit := write (output b)

/-- Explains a failure and ends the command. -/
def fail {α : Type} (m : Message) : Run α := do
  print m.markup
  throw (.exit 1)

end Run

/-! ## Arguments and settings -/

/-- The owner and the name of a repository that an argument names. -/
def splitSlug? (value : String) : Option (String × String) :=
  match pieces '/' (trimOf '/' (trim value)) with
  | [owner, name] =>
    if isBlankText owner || isBlankText name then none else some (trim owner, trim name)
  | _ => none

/-- The owner and the name of a repository, or an explanation why there are none. -/
def slugArgument (value : String) : Run (String × String) :=
  match splitSlug? value with
  | some slug => return slug
  | none => Run.fail (.badSlug value)

/-- A settings file, if it is there. -/
def settingsFile? (d : Disk) (path : Path) : Option SettingsFile :=
  (d.read? path).map fun text => ⟨path, Utf8.encode text.toList⟩

/-- The settings file of a project, in the directory that it lies in. -/
def projectConfig (cwd : Place) : Path := ⟨"/", cwd ++ ["repodoc.yaml"]⟩

/-- The settings from files and variables. -/
def loadSettings (around : Surroundings) : Run Config.Settings := do
  let d := (← get).machine.disk
  let (warnings, result) :=
    Config.load (settingsFile? d around.userConfig) (settingsFile? d (projectConfig d.cwd)) around.environment
  modify fun s => { s with warnings := s.warnings ++ warnings }
  match result with
  | .ok settings => return settings
  | .error (.problem p) => Run.fail (.config p.message)
  | .error f => throw (.crash (.load f))

/-- The settings changed by options. -/
def withOptions (settings : Config.Settings) (r : GenerateRequest) : Run Config.Settings := do
  let settings := { settings with
    workers := r.workers.getD settings.workers
    outputDirectory := r.outputDirectory.getD settings.outputDirectory
    level := (r.logLevel.map Level.ofAnyLabel).getD settings.level }
  match r.order with
  | none => return settings
  | some label =>
    match Report.Order.ofLabel? label with
    | some order => return { settings with order }
    | none => Run.fail (.config s!"--order must be insertion or name, got '{label}'")

/-! ## Databases -/

/-- The path that keeps a database out of all files. -/
def memoryDatabase : String := ":memory:"

/-- The place and the content of the database at a path; a new one if nothing is there. -/
def Machine.database (m : Machine) (p : Path) : Except DatabaseFault (Option Place × Store) :=
  if p.text = memoryDatabase then .ok (none, {})
  else
    match m.disk.locate p with
    | .error _ => .error .unopenable
    | .ok place =>
      match m.disk.entry? place with
      | some (.file text) =>
        match m.databases.lookup place with
        | some store => .ok (some place, store)
        | none => if text.isEmpty then .ok (some place, {}) else .error .notADatabase
      | none =>
        if (m.disk.locateDirectory p.parent).isOk && !p.isTraversal then .ok (some place, {})
        else .error .unopenable
      | some _ => .error .unopenable

/-- The machine with the content of a database. -/
def Machine.setDatabase (m : Machine) (place : Option Place) (store : Store) : Machine :=
  match place with
  | none => m
  | some place =>
    { disk := if (m.disk.entry? place).isSome then m.disk else m.disk.put place (.file "")
      databases := (place, store) :: m.databases.filter (·.1 ≠ place) }

/-- Opens the database at a path. -/
def openDatabase (p : Path) : Run (Option Place × Store) := do
  let m := (← get).machine
  match m.database p with
  | .error f => throw (.crash (.database f))
  | .ok (place, store) =>
    modify fun s => { s with machine := m.setDatabase place store }
    return (place, store)

/-! ## Generating -/

/-- The number of characters of a commit that are shown. -/
def commitWidth : Nat := 12

/-- A commit as it is shown. -/
def shortCommit (commit : String) : String := String.ofList (commit.toList.take commitWidth)

/-- Lists the files that failed. -/
def printFailures (report : Ingest.Report) : Run Unit := do
  let failures := report.outcomes.filterMap fun o => o.failure?.map fun f => (o.path, f)
  let headings ← ["Path", "Stage", "Error"].mapM Run.block
  let rows ← failures.mapM fun (path, stage, cause) =>
    [path, stage.name, cause.message].mapM Run.block
  Run.printBlock (ruledTable (← Run.line "Failed files") headings rows)

/-- The message for a generation that failed. -/
def failureMessage (slug : String) (e : Service.GenerationError) : Message :=
  match e.stage with
  | .metadata => .metadata slug e.detail
  | .ingestion => .ingestion e.detail
  | .assembly => .assembly e.detail
  | .exporting => .outputPath e.detail

/-- Says what a generation has made. -/
def reportResult (r : Service.Result) : Run Unit := do
  let commit := shortCommit r.snapshot.commit
  match r.report with
  | none => Run.print s!"  [dim]✓ Up to date at commit {commit}, reusing current document[/]"
  | some report =>
    Run.print s!"  [dim]✓ Ingested at commit {commit}: {report.summary}[/]"
    if report.failed ≠ 0 then printFailures report
  match r.outputPath with
  | some path => Run.print s!"\n  [green]✓[/] Written to [bold]{path}[/]"
  | none => return

/-- The token of an option, or else of the environment. -/
def tokenOf (env : Environment) (r : GenerateRequest) : Option String :=
  r.token.or (Environment.get? env "GITHUB_TOKEN")

/-- Generates the report of a repository and says what came of it. While a generation runs its progress
is shown; when that disappears it leaves an empty line, and so it does behind an explanation. -/
def runGenerate (around : Surroundings) (r : GenerateRequest) : Run Unit := do
  let (owner, name) ← slugArgument r.repository
  let settings ← withOptions (← loadSettings around) r
  let language ← match Language.ofName? settings.language with
    | some language => pure language
    | none => Run.fail (.unsupportedLanguage settings.language Language.names)
  let client ← match Client.make (tokenOf around.environment r) settings.apiUrl (.float settings.timeout) with
    | .ok client => pure client
    | .error f => Run.fail (.config f.message)
  let (place, store) ← openDatabase (Path.ofString r.database)
  let service : Service.Settings :=
    { basePath := settings.basePath, order := settings.order
      outputDirectory := some settings.outputDirectory
      failOnErrors := settings.failOnErrors, language }
  let m := (← get).machine
  let (result, after) := Service.generate (.ofClient client around.network) service around.random
    (some owner) (some name) r.force none { store, disk := m.disk }
  modify fun s => { s with
    machine := { m with disk := after.disk }.setDatabase place after.store
    requests := s.requests ++ after.requests }
  Run.print ""
  match result with
  | .ok result => reportResult result
  | .error (.generation e) =>
    match e.report with
    | some report => if report.failed ≠ 0 then printFailures report
    | none => pure ()
    Run.print (failureMessage (slugOf owner name) e).markup
    Run.print ""
    throw (.exit 1)
  | .error f => throw (.crash (.service f))

/-! ## Looking at databases -/

/-- Writes the current document of a repository. -/
def runShow (repository database : String) : Run Unit := do
  let (owner, name) ← slugArgument repository
  let path := Path.ofString database
  if !(← get).machine.disk.hasEntry path then Run.fail (.noDatabase path.text)
  let (_, store) ← openDatabase path
  match (store.repository? owner name).bind fun r => store.currentSnapshot? r.id with
  | none => Run.fail (.notGenerated (slugOf owner name))
  | some snapshot => Run.write snapshot.payload

/-- The title of the panel about repositories. -/
def repositoriesTitle : String := "[bold]Repositories[/]"

/-- What is said about a repository's document, and when it was saved. -/
def documentStatus (around : Surroundings) (r : Repository) : Option Snapshot → String × String
  | none => ("[dim]✗ Never generated[/]", "")
  | some snapshot =>
    if snapshot.commit = r.commit then ("[green]✓ Up to date[/]", around.savedText snapshot)
    else (s!"[yellow]✗ Stale ({shortCommit snapshot.commit})[/]", around.savedText snapshot)

/-- Shows the repositories of a database. -/
def printRepositories (around : Surroundings) (store : Store) : Run Unit := do
  let repositories := store.repositories.rows
  if repositories.isEmpty then
    let content ← Run.block "[dim]No repositories generated yet.[/]"
    Run.printBlock (panel (← Run.line repositoriesTitle) content)
  else
    let headings ← ["Repository", "Commit", "Document", "Generated"].mapM Run.block
    let rows ← repositories.mapM fun r => do
      let (status, saved) := documentStatus around r (store.currentSnapshot? r.id)
      [slugOf r.owner r.name, shortCommit r.commit, status, saved].mapM Run.block
    let current := repositories.filter fun r =>
      (store.currentSnapshot? r.id).any (·.commit = r.commit)
    let title ← Run.line
      s!"{repositoriesTitle} [dim]({current.length}/{repositories.length} up to date)[/]"
    Run.printBlock (panel title (plainTable headings rows))

/-- Shows a database and its repositories. -/
def runStatus (around : Surroundings) (database : String) : Run Unit := do
  let path := Path.ofString database
  if !(← get).machine.disk.hasEntry path then
    let content ← Run.block "[yellow]No database found.[/]\n  Run:  repodoc generate OWNER/REPO"
    Run.printBlock (panel (← Run.line repositoriesTitle) content)
  else
    let content ← Run.block s!"Database:  {path.text} ({around.sizeText path} MB)"
    Run.printBlock (panel (← Run.line "[bold]Project[/]") content)
    let (_, store) ← openDatabase path
    printRepositories around store

/-! ## Commands -/

/-- How the program is used. -/
def usage : String :=
  "Usage: repodoc [OPTIONS] COMMAND [ARGS]...\n\n" ++
  "  repodoc generate  Extract types and members, export the report.\n" ++
  "  repodoc show      Print the current report from the local database.\n" ++
  "  repodoc status    Show known repositories and whether their documents are current.\n" ++
  "  repodoc version   Show the installed repodoc version.\n"

/-- Does what a command line asks for. -/
def runRequest (around : Surroundings) : Request → Run Unit
  | .generate r => runGenerate around r
  | .showDocument repository database => runShow repository database
  | .status database => runStatus around database
  | .version => Run.write s!"repodoc {programVersion}\n"
  | .help => Run.write usage

/-- What has come of a command. -/
structure Outcome where
  exitCode : Nat
  output : String := ""
  /-- What is wrong with the words of the command line. -/
  usage : Option UsageFault := none
  crash : Option Crash := none
  warnings : List UnknownKey := []
  requests : List Remote.Request := []

/-- Runs the command that words ask for. -/
def run (around : Surroundings) (words : List String) (m : Machine) : Outcome × Machine :=
  match Request.ofWords words with
  | .error f => ({ exitCode := 2, usage := some f }, m)
  | .ok request =>
    let (result, s) := (runRequest around request).run { machine := m }
    let outcome : Outcome :=
      { exitCode := 0, output := s.output, warnings := s.warnings, requests := s.requests }
    match result with
    | .ok () => (outcome, s.machine)
    | .error (.exit code) => ({ outcome with exitCode := code }, s.machine)
    | .error (.crash c) => ({ outcome with exitCode := 1, crash := some c }, s.machine)

end CodeOutline.Command
