import CodeOutline.Command.Run

/-!
# The program

Reads the settings files and the database that a command may look at, runs the command, writes the
files that it has made, and prints what it says. No network is connected: every request is answered as
unreachable.
-/

namespace CodeOutline.Program

open CodeOutline.Command CodeOutline.Files

/-- A network that is not there. -/
def disconnected : Remote.Network where
  answer _ := .unreachable "no network"
  depth := 1

/-- The variables that commands look at. -/
def knownVariables : List String :=
  ["GITHUB_TOKEN", "REPODOC_API_URL", "REPODOC_WORKERS", "REPODOC_LOG_LEVEL", "REPODOC_EXPORT_ORDER"]

/-- The disk with the file at a path, if it can be read, and the directories above it. -/
def withFile (d : Disk) (path : Path) : IO Disk := do
  let place := path.placeFrom d.cwd
  match ← (IO.FS.readFile (Place.text place)).toBaseIO with
  | .error _ => return d
  | .ok text =>
    let directories := (List.range place.length).map place.take
    let d := directories.foldl (fun d p => if p.isEmpty then d else d.put p .directory) d
    return d.put place (.file text)

/-- The files of a disk that another does not have. -/
def newFiles (before after : Disk) : List (Place × String) :=
  after.entries.filterMap fun (place, entry) =>
    match entry with
    | .file text =>
      match before.entry? place with
      | some (.file old) => if old = text then none else some (place, text)
      | _ => some (place, text)
    | _ => none

/-- The size of the file at a path, as it is shown. -/
def sizeOf (d : Disk) (path : Path) : String :=
  let octets := ((d.read? path).map (·.utf8ByteSize)).getD 0
  let tenths := Number.Binary64.roundQuotient (octets * 10) (1024 * 1024)
  s!"{tenths / 10}.{tenths % 10}"

/-- The database that a command line asks for. -/
def databaseIn (words : List String) : Option String :=
  match Request.ofWords words with
  | .ok (.generate r) => some r.database
  | .ok (.showDocument _ database) | .ok (.status database) => some database
  | _ => none

/-- Runs the program; the answer is its exit code. -/
def runProgram (words : List String) : IO UInt32 := do
  let cwd := componentsOf (← IO.currentDir).toString
  let home := (← IO.getEnv "HOME").getD "/"
  let userConfig := Path.ofString (home ++ "/.repodoc/config.yaml")
  let environment ← knownVariables.filterMapM fun name => do
    return (← IO.getEnv name).map fun value => (name, value)
  let above := (List.range cwd.length).map fun n => (cwd.take (n + 1), Entry.directory)
  let disk ← withFile { entries := above, cwd } userConfig
  let disk ← withFile disk (projectConfig cwd)
  let disk ← match databaseIn words with
    | some path => withFile disk (Path.ofString path)
    | none => pure disk
  let around : Surroundings := {
    environment, network := disconnected, userConfig
    sizeText := sizeOf disk, savedText := fun _ => "", random := toString (← IO.rand 0 99999999) }
  let (outcome, machine) := run around words { disk }
  for warning in outcome.warnings do
    IO.eprintln warning.message
  match outcome.usage, outcome.crash with
  | some fault, _ => IO.eprintln fault.message
  | none, some crash => IO.eprintln crash.message
  | none, none => pure ()
  for (place, text) in newFiles disk machine.disk do
    IO.FS.createDirAll (Place.text place.dropLast)
    IO.FS.writeFile (Place.text place) text
  IO.print outcome.output
  return UInt32.ofNat outcome.exitCode

end CodeOutline.Program

def main (words : List String) : IO UInt32 := CodeOutline.Program.runProgram words
