import CodeOutline.Text.Lines

/-!
# Messages to the user

What went wrong, and what the user can do about it, as marked-up text.
-/

namespace CodeOutline.Command

open CodeOutline.Text

/-- The place of the database where none is given. -/
def defaultDatabase : String := ".repodoc.db"

/-- What the program says when it cannot go on. -/
inductive Message where
  /-- An argument does not name a repository. -/
  | badSlug (value : String)
  | noDatabase (path : String)
  /-- A repository has no document. -/
  | notGenerated (slug : String)
  /-- Settings cannot be used. -/
  | config (reason : String)
  | unsupportedLanguage (name : String) (supported : List String)
  /-- The remote says nothing about a repository. -/
  | metadata (slug reason : String)
  | ingestion (reason : String)
  | assembly (reason : String)
  /-- A report cannot be written. -/
  | outputPath (reason : String)
  deriving Repr, DecidableEq

/-- The message as marked-up text. -/
def Message.markup : Message → String
  | badSlug value =>
    s!"[red]Error:[/] Invalid repository '{value}'.\n" ++
      "  Use the form OWNER/REPO, e.g.:  repodoc generate acme/widgets"
  | noDatabase path =>
    s!"[red]Error:[/] No database found at '{path}'.\n" ++
      "  Run:  repodoc generate OWNER/REPO"
  | notGenerated slug =>
    s!"[yellow]No document for[/] '{slug}'.\n" ++
      s!"  Run:  repodoc generate {slug}"
  | config reason =>
    "[red]Error:[/] Invalid configuration.\n" ++
      s!"  {reason}\n" ++
      "  Fix repodoc.yaml or ~/.repodoc/config.yaml and retry."
  | unsupportedLanguage name supported =>
    s!"[red]Error:[/] No parser for language '{name}'.\n" ++
      "  Supported: " ++ joinWith ", " supported ++ "\n" ++
      "  Set ingest.language in repodoc.yaml."
  | metadata slug reason =>
    s!"[red]Error:[/] Could not fetch repository metadata for '{slug}'.\n" ++
      s!"  {reason}\n" ++
      "  Check the repository name, and for private repositories set:\n" ++
      "    export GITHUB_TOKEN=<token>"
  | ingestion reason =>
    s!"[red]Error:[/] Ingestion failed: {reason}\n" ++
      "  See the failed files above. Re-run with --log-level INFO for details."
  | assembly reason =>
    s!"[red]Error:[/] Document assembly failed: {reason}\n" ++
      "  Re-run with --force to extract every file again."
  | outputPath reason =>
    s!"[red]Error:[/] Could not write the report: {reason}\n" ++
      "  Use --output-dir with a writable directory inside the current working directory."

end CodeOutline.Command
