import CodeOutline.Graph.Hierarchy
import CodeOutline.Java.Facts
import CodeOutline.Remote.Fault

/-!
# Outcomes of ingestion

What became of each file of a batch: its facts are stored, or it failed at some stage, or it was not
started at all. One file's failure never touches another.
-/

namespace CodeOutline.Ingest

open CodeOutline.Graph CodeOutline.Remote

/-- A part of a file's ingestion that can fail. -/
inductive Stage where
  | fetch
  | parse
  | persist
  deriving Repr, DecidableEq

def Stage.name : Stage → String
  | fetch => "fetch"
  | parse => "parse"
  | persist => "persist"

/-- Why a file fails. -/
inductive Cause where
  | fetch (fault : FetchFault)
  | source (error : Java.SyntaxError)
  | hierarchy (fault : HierarchyFault)
  | store (fault : StoreFault)
  deriving Repr, DecidableEq

def Cause.message : Cause → String
  | fetch fault => fault.message
  | source error => error.message
  | hierarchy fault => fault.message
  | store fault => fault.message

/-- The message for a file that failed. -/
def failureMessage (stage path cause : String) : String :=
  s!"{stage} failed for '{path}': {cause}"

/-- What became of a file. -/
inductive Result where
  /-- The facts are stored, under the given namespace. -/
  | stored (namespaceName : String) (types : Nat)
  /-- The namespace is known unless the text could not be fetched. -/
  | failed (stage : Stage) (cause : Cause) (namespaceName : Option String)
  | skipped
  deriving Repr, DecidableEq

/-- A file and what became of it. -/
structure Outcome where
  path : String
  result : Result
  deriving Repr, DecidableEq

namespace Outcome

def isStored (o : Outcome) : Bool := match o.result with | .stored .. => true | _ => false
def isFailed (o : Outcome) : Bool := match o.result with | .failed .. => true | _ => false
def isSkipped (o : Outcome) : Bool := match o.result with | .skipped => true | _ => false

/-- The namespace of a file whose text was read. -/
def namespaceName? (o : Outcome) : Option String :=
  match o.result with
  | .stored name _ => some name
  | .failed _ _ name => name
  | .skipped => none

/-- The number of types stored for the file. -/
def typeCount (o : Outcome) : Nat := match o.result with | .stored _ n => n | _ => 0

/-- The stage and the cause of a failure. -/
def failure? (o : Outcome) : Option (Stage × Cause) :=
  match o.result with
  | .failed stage cause _ => some (stage, cause)
  | _ => none

end Outcome

/-- What became of a batch of files, in the order in which they were given. -/
structure Report where
  /-- The graph key of the repository. -/
  repository : String
  outcomes : List Outcome
  deriving Repr, DecidableEq

namespace Report

def stored (r : Report) : Nat := r.outcomes.countP Outcome.isStored
def failed (r : Report) : Nat := r.outcomes.countP Outcome.isFailed
def skipped (r : Report) : Nat := r.outcomes.countP Outcome.isSkipped

/-- The report in one line. -/
def summary (r : Report) : String :=
  s!"{r.outcomes.length} files: {r.stored} ingested, {r.failed} failed, {r.skipped} skipped"

end Report

end CodeOutline.Ingest
