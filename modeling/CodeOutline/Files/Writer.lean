import CodeOutline.Files.Disk

/-!
# Writing reports

A report is written beside its place under a temporary name and then moved there, so that a reader
sees the old text or the new one. Directories on the way are made first. If a step fails the temporary
file is removed again and only new directories remain.

Reports lie at a path made from the repository's owner and name. A relative path must stay inside a
base directory once its links are followed; an absolute one was chosen on purpose.
-/

namespace CodeOutline.Files

open CodeOutline.Text

/-- An operation that the disk refuses, with the paths it was asked for. -/
structure DiskFault where
  errno : Errno
  path : String
  /-- The second path of a move. -/
  goal : Option String := none
  deriving Repr, DecidableEq

def DiskFault.message (f : DiskFault) : String :=
  s!"[Errno {f.errno.code}] {f.errno.text}: '{f.path}'" ++
    match f.goal with
    | some goal => s!" -> '{goal}'"
    | none => ""

/-- Why a file cannot be written. -/
inductive WriteFault where
  | disk (fault : DiskFault)
  | nullCharacter
  deriving Repr, DecidableEq

def WriteFault.message : WriteFault → String
  | disk fault => fault.message
  | nullCharacter => "embedded null byte"

/-- The path has a character that no operation takes. -/
def Path.hasNull (p : Path) : Bool := p.text.toList.contains '\x00'

/-- Whether the path names what it goes through and not an entry of its own. -/
def Path.isTraversal (p : Path) : Bool := p.parts.isEmpty || p.name = ".."

namespace Disk

/-- Makes one directory. -/
def makeDirectory (d : Disk) (p : Path) : Except Errno Disk :=
  if p.isTraversal then
    match d.locate p with
    | .ok _ => .error .exists
    | .error errno => .error errno
  else if pathLimit < p.text.utf8ByteSize then .error .nameTooLong
  else
    match d.locateDirectory p.parent with
    | .error errno => .error errno
    | .ok parent =>
      if componentLimit < p.name.utf8ByteSize then .error .nameTooLong
      else if (d.entry? (parent ++ [p.name])).isSome then .error .exists
      else .ok (d.put (parent ++ [p.name]) .directory)

/-- Makes a directory unless it is there already. -/
def ensureDirectory (d : Disk) (p : Path) : Except WriteFault Unit × Disk :=
  if p.hasNull then (.error .nullCharacter, d)
  else
    match d.makeDirectory p with
    | .ok d => (.ok (), d)
    | .error errno =>
      if errno ≠ .notFound && d.isDirectory p then (.ok (), d)
      else (.error (.disk { errno, path := p.text }), d)

/-- Makes a directory and those above it, as far as they are not there. -/
def ensureDirectories (d : Disk) (p : Path) : Except WriteFault Unit × Disk :=
  match d.ensureDirectory p with
  | (.error (.disk fault), d) =>
    if _h : fault.errno = .notFound ∧ p.parts ≠ [] then
      match d.ensureDirectories p.parent with
      | (.ok (), d) => d.ensureDirectory p
      | failed => failed
    else (.error (.disk fault), d)
  | answer => answer
termination_by p.parts.length
decreasing_by
  have := List.length_pos_iff.2 _h.2
  simp only [Path.parent, List.length_dropLast]
  omega

/-! ## Files -/

/-- The disk without what is at a place. -/
def remove (d : Disk) (place : Place) : Disk :=
  { d with entries := d.entries.filter (·.1 ≠ place) }

/-- The temporary name for a file. -/
def temporaryName (name random : String) : String := s!".{name}.{random}.tmp"

/-- The directory that a temporary file for a path is made in, as it is written: each `..` takes back
the component before it, whether or not that is a link. -/
def temporaryDirectory (d : Disk) (p : Path) : Place :=
  Place.normalize (p.parent.placeFrom d.cwd)

/-- The path that a temporary file is made at. It keeps the root of two slashes. -/
def temporaryPath (d : Disk) (p : Path) (random : String) : String :=
  Path.text ⟨if p.isAbsolute then p.root else "/",
    d.temporaryDirectory p ++ [temporaryName p.name random]⟩

/-- Makes an empty temporary file for a path, and says where it is. Nothing must be there yet. -/
def makeTemporary (d : Disk) (p : Path) (random : String) : Except WriteFault (Place × Disk) :=
  let name := temporaryName p.name random
  let path := d.temporaryPath p random
  if p.hasNull then .error .nullCharacter
  else if componentLimit < name.utf8ByteSize || pathLimit < path.utf8ByteSize then
    .error (.disk ⟨.nameTooLong, path, none⟩)
  else
    match d.locateDirectory ⟨"/", d.temporaryDirectory p⟩ with
    | .error errno => .error (.disk ⟨errno, path, none⟩)
    | .ok directory =>
      if (d.entry? (directory ++ [name])).isSome then .error (.disk ⟨.exists, path, none⟩)
      else .ok (directory ++ [name], d.put (directory ++ [name]) (.file ""))

/-- How writing breaks off. -/
structure Breakdown where
  /-- The part of the text that is in the file by then. -/
  written : String
  fault : WriteFault

/-- Writes a text into the file at a place, all of it unless that breaks off. -/
def fill (d : Disk) (place : Place) (text : String) :
    Option Breakdown → Except WriteFault Unit × Disk
  | none => (.ok (), d.put place (.file text))
  | some b => (.error b.fault, d.put place (.file b.written))

/-- Puts a text at the place of a file inside a directory, in the place of what is there. -/
def replaceFile (d : Disk) (directory : Place) (p : Path) (text : String) : Except Errno Disk :=
  if p.isTraversal then .error .busy
  else if pathLimit < p.text.utf8ByteSize then .error .nameTooLong
  else
    match d.entry? (directory ++ [p.name]) with
    | some .directory => .error .isDirectory
    | _ => .ok (d.put (directory ++ [p.name]) (.file text))

/-- Moves the file at a place to a path, in the place of what is there. -/
def move (d : Disk) (place : Place) (p : Path) : Except Errno Disk :=
  match d.entry? place with
  | some (.file text) =>
    match d.locateDirectory p.parent with
    | .error errno => .error errno
    | .ok directory => (d.replaceFile directory p text).map (·.remove place)
  | _ => .error .notFound

/-- Writes a text to a path, step by step, where writing may break off. `random` is the part of the
temporary name that is tried last. -/
def writeUnless (broken : Option Breakdown) (d : Disk) (p : Path) (text random : String) :
    Except WriteFault Unit × Disk :=
  match d.ensureDirectories p.parent with
  | (.error fault, d) => (.error fault, d)
  | (.ok (), d) =>
    match d.makeTemporary p random with
    | .error fault => (.error fault, d)
    | .ok (temporary, d) =>
      match d.fill temporary text broken with
      | (.error fault, d) => (.error fault, d.remove temporary)
      | (.ok (), d) =>
        match d.move temporary p with
        | .ok d => (.ok (), d)
        | .error errno =>
          (.error (.disk ⟨errno, d.temporaryPath p random, some p.text⟩), d.remove temporary)

/-- Writes a text to a path. `random` is the part of the temporary name that no other file has. -/
def write (d : Disk) (p : Path) (text random : String) : Except WriteFault Unit × Disk :=
  d.writeUnless none p text random

end Disk

/-! ## Report paths -/

/-- A character of an owner's or a repository's name. -/
def isSlugChar (c : Char) : Bool := c.isAlphanum || c == '_' || c == '.' || c == '-'

/-- A name that may be a component of a report's path. -/
def isSlugPart (s : String) : Bool :=
  s ≠ "." && s ≠ ".." && !s.isEmpty && s.toList.all isSlugChar

/-- Why there is no place for a repository's report. -/
inductive ReportPathFault where
  /-- The name of an owner or a repository that is none. -/
  | badName (name : String)
  deriving Repr, DecidableEq

def ReportPathFault.message : ReportPathFault → String
  | badName name => s!"Invalid repository name component: {quoted name}"

/-- The path of a repository's report under a directory. -/
def reportPath (directory owner name : String) : Except ReportPathFault Path :=
  if !isSlugPart owner then .error (.badName owner)
  else if !isSlugPart name then .error (.badName name)
  else .ok (Path.ofString directory ++ ⟨"", [owner, name ++ ".md"]⟩)

/-- Why an output directory is refused. -/
inductive OutputFault where
  | resolve (fault : Disk.ResolveFault)
  /-- A path, as it was given, that leads out of the base. -/
  | outside (output : String) (base : Place)
  deriving Repr, DecidableEq

def OutputFault.message : OutputFault → String
  | resolve fault => fault.message
  | outside output base =>
    s!"Output path '{output}' resolves outside '{base.text}'. Path traversal is not permitted."

/-- The place that an output path names. A relative one must lie inside the base, which is the working
directory unless another is given. -/
def Disk.outputPlace (d : Disk) (output : String) (base : Option Place) : Except OutputFault Place :=
  let p := Path.ofString output
  if p.isAbsolute then (d.resolve p.parts).mapError .resolve
  else
    match d.resolve (base.getD d.cwd) with
    | .error fault => .error (.resolve fault)
    | .ok base =>
      match d.resolve (base ++ p.parts) with
      | .error fault => .error (.resolve fault)
      | .ok place => if base.isPrefixOf place then .ok place else .error (.outside output base)

end CodeOutline.Files
