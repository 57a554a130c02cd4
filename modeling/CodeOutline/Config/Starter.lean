import CodeOutline.Files.Writer

/-!
# The first settings file

A user without a settings file gets one that shows the defaults. Nobody but the user may read it.
-/

namespace CodeOutline.Config

open CodeOutline.Files

/-- The text of a new settings file. -/
def starterText : String :=
  "# Repodoc global configuration, defaults only.\n" ++
  "# NEVER store tokens here, use the environment:\n" ++
  "#   export GITHUB_TOKEN=ghp_...\n" ++
  "\n" ++
  "github:\n" ++
  "  api_url: https://api.github.com\n" ++
  "  base_path: src/main/java\n" ++
  "\n" ++
  "ingest:\n" ++
  "  workers: 4\n"

/-- Rights on a file or directory: three bits each for its owner, its group and all others. -/
structure Rights where
  owner : Nat
  group : Nat
  others : Nat
  deriving Repr, DecidableEq

/-- The rights in octal digits. -/
def Rights.text (r : Rights) : String := s!"0o{r.owner}{r.group}{r.others}"

/-- The rights on a new settings file. -/
def starterRights : Rights := ⟨6, 0, 0⟩

/-- The rights on a new directory of settings. -/
def directoryRights : Rights := ⟨7, 0, 0⟩

/-- Puts the first settings file at a path, unless something is there. Directories on the way are
made. -/
def ensureStarter (d : Disk) (p : Path) : Except WriteFault Unit × Disk :=
  match d.ensureDirectories p.parent with
  | (.error fault, d) => (.error fault, d)
  | (.ok (), d) =>
    if d.hasEntry p then (.ok (), d)
    else
      match d.locate p.parent with
      | .ok directory => (.ok (), d.put (directory ++ [p.name]) (.file starterText))
      | .error errno => (.error (.disk { errno, path := p.text }), d)

end CodeOutline.Config
