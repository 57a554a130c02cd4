import CodeOutline.Log.Event
import CodeOutline.Report.Markdown
import CodeOutline.Remote.Client
import CodeOutline.Text.Upper

/-!
# Settings

The settings of the program: where repositories come from, how their files are ingested, how reports
are written and what is logged. Settings that come from files and variables are checked before they
are used: a service address of the web, a timeout that is not zero or less, at least one worker, and
an order and a log level that exist.
-/

namespace CodeOutline.Config

open CodeOutline.Data CodeOutline.Log CodeOutline.Number CodeOutline.Remote CodeOutline.Text

/-- Settings that have not been checked. -/
structure Draft where
  apiUrl : String := defaultApiUrl
  basePath : String := defaultBasePath
  timeout : Binary64 := .ofDecimal false 30 0
  language : String := "java"
  workers : Int := 4
  /-- A single file that fails makes a generation fail. -/
  failOnErrors : Bool := false
  order : String := "insertion"
  outputDirectory : String := "docs"
  level : String := "WARNING"
  /-- Log lines are JSON. -/
  json : Bool := false
  deriving Repr, DecidableEq

/-- Settings that can be used. -/
structure Settings where
  apiUrl : String
  basePath : String
  timeout : Binary64
  language : String
  workers : Int
  failOnErrors : Bool
  order : Report.Order
  outputDirectory : String
  level : Level
  json : Bool
  deriving Repr, DecidableEq

/-- A rule that settings break. -/
inductive Violation where
  | apiUrl (url : String)
  | timeout (seconds : Binary64)
  | workers (n : Int)
  | order (label : String)
  | level (label : String)
  deriving Repr, DecidableEq

def Violation.message : Violation → String
  | apiUrl url => s!"github.api_url must be an http(s) URL: '{url}'"
  | timeout seconds => s!"github.timeout must be > 0, got {seconds.text}"
  | workers n => s!"ingest.workers must be >= 1, got {n}"
  | order label => s!"export.order must be one of {Report.Order.labels}, got '{label}'"
  | level label => s!"logging.level must be one of {Level.labels}, got '{label}'"

/-- The message would hold an integer that is too long to be written. -/
def Violation.isUnwritable : Violation → Bool
  | workers n => Datum.isLongInteger n
  | _ => false

/-- The beginnings of addresses of the web. -/
def webSchemes : List String := ["https://", "http://"]

/-- The settings of a draft that breaks no rule. Of several broken rules the first counts. -/
def Draft.check (d : Draft) : Except Violation Settings := do
  if !webSchemes.any fun s => s.toList.isPrefixOf d.apiUrl.toList then throw (.apiUrl d.apiUrl)
  if d.timeout.isNonPositive then throw (.timeout d.timeout)
  if d.workers < 1 then throw (.workers d.workers)
  let order ← match Report.Order.ofLabel? d.order with
    | some order => pure order
    | none => throw (.order d.order)
  let label := upper d.level
  let level ← match Level.ofLabel? label with
    | some level => pure level
    | none => throw (.level label)
  return {
    apiUrl := d.apiUrl, basePath := d.basePath, timeout := d.timeout, language := d.language
    workers := d.workers, failOnErrors := d.failOnErrors, order
    outputDirectory := d.outputDirectory, level, json := d.json }

end CodeOutline.Config
