import CodeOutline.Data.Column
import CodeOutline.Files.Writer
import CodeOutline.Ingest.Batch
import CodeOutline.Report.Assembly
import CodeOutline.Report.Markdown

/-!
# Errors of a generation

A generation fails at one of four stages. What is known about the files by then comes with the error.
-/

namespace CodeOutline.Service

open CodeOutline.Data CodeOutline.Files CodeOutline.Graph CodeOutline.Remote

/-- A part of a generation that can fail. -/
inductive Stage where
  | metadata
  | ingestion
  | assembly
  | exporting
  deriving Repr, DecidableEq

def Stage.name : Stage → String
  | metadata => "metadata"
  | ingestion => "ingestion"
  | assembly => "assembly"
  | exporting => "export"

/-- Why no report can be written. -/
inductive ExportFault where
  | path (fault : ReportPathFault)
  | output (fault : OutputFault)
  | write (fault : WriteFault)
  deriving Repr, DecidableEq

def ExportFault.message : ExportFault → String
  | path fault => fault.message
  | output fault => fault.message
  | write fault => fault.message

/-- Why a generation fails. -/
inductive GenerationFault where
  | metadata (fault : FetchFault)
  | listing (fault : FetchFault)
  | cancelled
  | nothingIngested
  | filesFailed
  | assembly (fault : Report.AssemblyFault)
  | exporting (fault : ExportFault)
  deriving Repr, DecidableEq

/-- A failed generation, with what became of its files if any were started. -/
structure GenerationError where
  fault : GenerationFault
  report : Option Ingest.Report
  deriving Repr, DecidableEq

namespace GenerationError

/-- The stage at which the generation failed. -/
def stage (e : GenerationError) : Stage :=
  match e.fault with
  | .metadata _ => .metadata
  | .listing _ | .cancelled | .nothingIngested | .filesFailed => .ingestion
  | .assembly _ => .assembly
  | .exporting _ => .exporting

/-- The message without its stage. -/
def detail (e : GenerationError) : String :=
  let summary := (e.report.map Ingest.Report.summary).getD ""
  match e.fault with
  | .metadata fault => fault.message
  | .listing fault => s!"file listing failed: {fault.message}"
  | .cancelled => s!"cancelled before all files were ingested ({summary})"
  | .nothingIngested => s!"no file could be ingested ({summary})"
  | .filesFailed => summary
  | .assembly fault => fault.message
  | .exporting fault => fault.message

def message (e : GenerationError) : String := s!"{e.stage.name}: {e.detail}"

end GenerationError

/-- Why there is no result at all. Beside failures of a stage these are unusable arguments, and answers
or files of a kind that no stage is prepared for. -/
inductive Fault where
  | blankName
  | generation (error : GenerationError)
  | remote (fault : RemoteFault)
  | column (fault : ColumnFault)
  | store (fault : StoreFault)
  | resolve (fault : Disk.ResolveFault)
  deriving Repr, DecidableEq

def blankNameMessage : String := "Repository owner and name cannot be null or blank"

def Fault.message : Fault → String
  | blankName => blankNameMessage
  | generation error => error.message
  | remote fault => fault.message
  | column fault => fault.message
  | store fault => fault.message
  | resolve fault => fault.message

/-- Why a service cannot be set up. -/
inductive SetupFault where
  | language (name : String)
  | workers
  | order (label : String)
  deriving Repr, DecidableEq

def SetupFault.message : SetupFault → String
  | language name => Language.unsupportedMessage name
  | workers => "workers must be >= 1"
  | order label => Report.Order.unknownMessage label

end CodeOutline.Service
