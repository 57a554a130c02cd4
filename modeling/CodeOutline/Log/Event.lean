import CodeOutline.Data.Datum

/-!
# Log events

What the library reports about its own work: a named event with fields, at a level.
-/

namespace CodeOutline.Log

open CodeOutline.Data

/-- How serious an event is. -/
inductive Level where
  | debug
  | info
  | warning
  | error
  | critical
  deriving Repr, DecidableEq

namespace Level

/-- The name that settings and lines of the log use for the level. -/
def name : Level → String
  | debug => "debug"
  | info => "info"
  | warning => "warning"
  | error => "error"
  | critical => "critical"

/-- The rank of a level; an event passes a threshold of no higher rank. -/
def rank : Level → Nat
  | debug => 10
  | info => 20
  | warning => 30
  | error => 40
  | critical => 50

/-- The levels from the least on. -/
def all : List Level := [debug, info, warning, error, critical]

/-- The name of a level in settings. -/
def label : Level → String
  | debug => "DEBUG"
  | info => "INFO"
  | warning => "WARNING"
  | error => "ERROR"
  | critical => "CRITICAL"

/-- The level of a name in settings. -/
def ofLabel? (s : String) : Option Level := all.find? (·.label = s)

/-- The names of all levels in settings. -/
def labels : String := ", ".intercalate (all.map label)

/-- An event of this level is shown where `threshold` is the least level shown. -/
def passes (level threshold : Level) : Bool := threshold.rank ≤ level.rank

end Level

/-- Something that happened, with what is known about it. -/
structure Event where
  level : Level
  name : String
  /-- The fields in the order in which they are written. -/
  fields : List (String × Datum)
  deriving Repr

/-- The event with more fields, those left out that it has already. -/
def Event.within (e : Event) (context : List (String × Datum)) : Event :=
  { e with fields := e.fields ++ context.filter fun c => !e.fields.any (·.1 = c.1) }

def debug (name : String) (fields : List (String × Datum)) : Event := ⟨.debug, name, fields⟩
def info (name : String) (fields : List (String × Datum)) : Event := ⟨.info, name, fields⟩
def warning (name : String) (fields : List (String × Datum)) : Event := ⟨.warning, name, fields⟩

end CodeOutline.Log
