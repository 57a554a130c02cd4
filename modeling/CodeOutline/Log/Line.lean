import CodeOutline.Json.Printer
import CodeOutline.Log.Event
import CodeOutline.Text.Upper

/-!
# Log lines

An event is written as one line, for a reader at a console or as JSON. A console line starts with the
time, the level and the name of the event and has the fields in the order of their names; a JSON line
keeps the order of the fields and ends with level and time.
-/

namespace CodeOutline.Log

open CodeOutline.Data CodeOutline.Text

/-- What is logged, and how. -/
structure Setup where
  /-- The least level that is logged. -/
  threshold : Level := .warning
  json : Bool := false
  deriving Repr, DecidableEq

/-- The level of a name in any letter case; a name of no level stands for warnings. -/
def Level.ofAnyLabel (s : String) : Level :=
  (ofLabel? (upper s)).getD .warning

/-- The fields with the value of one set. A field that is there keeps its place. -/
def setField (name : String) (value : Datum) : List (String × Datum) → List (String × Datum)
  | [] => [(name, value)]
  | (n, v) :: rest => if n = name then (n, value) :: rest else (n, v) :: setField name value rest

/-- All fields of a line: those of the event, its name, those of the context that are not among them,
level and time. -/
def Event.allFields (e : Event) (context : List (String × Datum)) (time : String) :
    List (String × Datum) :=
  let named : Event := { e with fields := e.fields ++ [("event", .text e.name)] }
  setField "timestamp" (.text time) (setField "level" (.text e.level.name) (named.within context).fields)

/-- The line as JSON. -/
def Event.jsonLine (e : Event) (context : List (String × Datum)) (time : String) : String :=
  Json.write (.map ((e.allFields context time).map fun f => (.text f.1, f.2)))

/-- A character for which a text is quoted. -/
def isSpecial (c : Char) : Bool :=
  [' ', '\t', '=', '\r', '\n', '"', '\''].contains c

/-- The value of a field on a console line. -/
def shownValue : Datum → String
  | .text s => if s.toList.any isSpecial then quoted s else s
  | d => d.literal

/-- The fields with a place of their own on a console line. -/
def placedFields : List String := ["timestamp", "level", "event"]

/-- The line for a console. -/
def Event.consoleLine (e : Event) (context : List (String × Datum)) (time : String) : String :=
  let others := (e.allFields context time).filter fun f => !placedFields.contains f.1
  let sorted := others.mergeSort fun a b => !decide (b.1 < a.1)
  joinWith " " ([time, s!"[{e.level.name}]", e.name] ++ sorted.map fun f => f.1 ++ "=" ++ shownValue f.2)

/-- The line of an event in a context, if the event is logged. -/
def Setup.line? (s : Setup) (e : Event) (context : List (String × Datum)) (time : String) : Option String :=
  if e.level.passes s.threshold then
    some (if s.json then e.jsonLine context time else e.consoleLine context time)
  else none

end CodeOutline.Log
