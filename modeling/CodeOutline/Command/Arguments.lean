import CodeOutline.Command.Message
import CodeOutline.Number.Reading

/-!
# Arguments

The words of a command line. A word that starts with a hyphen names options: a long one behind two
hyphens, or several short ones behind one. An option that takes a value finds it behind an equals sign,
in the rest of its word, or in the next word. The word `--` ends the options. An option that is given
again replaces what it was given before.
-/

namespace CodeOutline.Command

open CodeOutline.Number CodeOutline.Text

/-- An option that a command knows. -/
structure Parameter where
  /-- The long name, with its hyphens. -/
  name : String
  short : Option Char := none
  takesValue : Bool := true

/-- Why words are no command line. -/
inductive UsageFault where
  | unknownOption (name : String)
  /-- An option that takes a value has none. -/
  | missingValue (name : String)
  /-- An option that takes no value has one. -/
  | unexpectedValue (name : String)
  | badValue (name value : String)
  | missingArgument
  | extraArgument (value : String)
  | missingCommand
  | unknownCommand (name : String)
  deriving Repr, DecidableEq

def UsageFault.message : UsageFault → String
  | unknownOption name => s!"No such option: {name}"
  | missingValue name => s!"Option '{name}' requires an argument."
  | unexpectedValue name => s!"Option '{name}' does not take a value."
  | badValue name value => s!"Invalid value for '{name}': '{value}'"
  | missingArgument => "Missing argument 'REPOSITORY'."
  | extraArgument value => s!"Got unexpected extra argument ({value})"
  | missingCommand => "Missing command."
  | unknownCommand name => s!"No such command '{name}'."

/-! ## Words -/

/-- Options with their values in the order in which they are given. An option that takes no value has
an empty one. -/
abbrev Given := List (String × String)

/-- What one word says. -/
structure Word where
  given : Given
  /-- An option whose value is the next word. -/
  awaited : Option String := none

/-- Short options in a row. What follows one that takes a value is its value. -/
def readShort (ps : List Parameter) (given : Given) : List Char → Except UsageFault Word
  | [] => .ok { given }
  | c :: rest =>
    match ps.find? fun p => p.short = some c with
    | none => .error (.unknownOption (String.ofList ['-', c]))
    | some p =>
      if !p.takesValue then readShort ps (given ++ [(p.name, "")]) rest
      else if rest.isEmpty then .ok { given, awaited := some p.name }
      else .ok { given := given ++ [(p.name, String.ofList rest)] }

/-- The name of a long option and the value behind an equals sign. -/
def splitValue (word : String) : String × Option String :=
  let cs := word.toList
  let name := cs.takeWhile (· ≠ '=')
  (String.ofList name, (cs.drop name.length).head?.map fun _ => String.ofList (cs.drop (name.length + 1)))

/-- A word that starts with a hyphen. -/
def readWord (ps : List Parameter) (word : String) : Except UsageFault Word :=
  let (name, value?) := splitValue word
  match ps.find? (·.name = name), value? with
  | some p, some value =>
    if p.takesValue then .ok { given := [(p.name, value)] } else .error (.unexpectedValue name)
  | some p, none =>
    if p.takesValue then .ok { given := [], awaited := some p.name }
    else .ok { given := [(p.name, "")] }
  | none, _ =>
    if "--".toList.isPrefixOf word.toList then .error (.unknownOption name)
    else readShort ps [] (word.toList.drop 1)

/-- The word names options. -/
def isOptionWord (word : String) : Bool :=
  word.toList.head? = some '-' && 1 < word.length

/-- The options and the other words of a command line. Unless options may stand anywhere, the first
other word ends them. -/
def readWords (ps : List Parameter) (anywhere : Bool) (given : Given) (others : List String) :
    List String → Except UsageFault (Given × List String)
  | [] => .ok (given, others)
  | word :: rest =>
    if word = "--" then .ok (given, others ++ rest)
    else if isOptionWord word then
      match readWord ps word with
      | .error f => .error f
      | .ok ⟨more, none⟩ => readWords ps anywhere (given ++ more) others rest
      | .ok ⟨more, some name⟩ =>
        match rest with
        | [] => .error (.missingValue name)
        | value :: rest => readWords ps anywhere (given ++ more ++ [(name, value)]) others rest
    else if anywhere then readWords ps anywhere given (others ++ [word]) rest
    else .ok (given, others ++ word :: rest)

/-- The value that an option is given last. -/
def value? (given : Given) (name : String) : Option String :=
  given.reverse.lookup name

/-- An option is given. -/
def isGiven (given : Given) (name : String) : Bool := (value? given name).isSome

/-! ## Commands -/

/-- What a generation is asked for. -/
structure GenerateRequest where
  repository : String
  database : String
  token : Option String
  workers : Option Int
  outputDirectory : Option String
  order : Option String
  force : Bool
  logLevel : Option String
  deriving Repr, DecidableEq

/-- What a command line asks for. -/
inductive Request where
  | generate (r : GenerateRequest)
  | showDocument (repository database : String)
  | status (database : String)
  | version
  | help
  deriving Repr, DecidableEq

def helpParameter : Parameter := ⟨"--help", none, false⟩
def databaseParameter : Parameter := ⟨"--db", none, true⟩

/-- What the command `generate` takes. -/
def generateParameters : List Parameter :=
  [databaseParameter, ⟨"--token", none, true⟩, ⟨"--workers", some 'w', true⟩,
    ⟨"--output-dir", some 'o', true⟩, ⟨"--order", none, true⟩, ⟨"--force", some 'f', false⟩,
    ⟨"--log-level", none, true⟩, helpParameter]

/-- A number of workers, which is one or more. -/
def workersOf (given : Given) : Except UsageFault (Option Int) :=
  match value? given "--workers" with
  | none => .ok none
  | some text =>
    match readInt text.toList with
    | .ok n => if n < 1 then .error (.badValue "--workers" text) else .ok (some n)
    | .error _ => .error (.badValue "--workers" text)

/-- The only word. -/
def onlyWord : List String → Except UsageFault String
  | [] => .error .missingArgument
  | [word] => .ok word
  | _ :: extra :: _ => .error (.extraArgument extra)

/-- No word at all. -/
def noWord : List String → Except UsageFault Unit
  | [] => .ok ()
  | extra :: _ => .error (.extraArgument extra)

/-- The database that is asked for. -/
def databaseOf (given : Given) : String := (value? given "--db").getD defaultDatabase

/-- The request behind the options that stand before it. -/
def Request.ofCommand (words : List String) : Except UsageFault Request := do
  match words with
  | [] => throw .missingCommand
  | "generate" :: words =>
    let (given, others) ← readWords generateParameters true [] [] words
    if isGiven given "--help" then return .help
    let workers ← workersOf given
    return .generate {
      repository := ← onlyWord others
      database := databaseOf given
      token := value? given "--token"
      workers
      outputDirectory := value? given "--output-dir"
      order := value? given "--order"
      force := isGiven given "--force"
      logLevel := value? given "--log-level" }
  | "show" :: words =>
    let (given, others) ← readWords [databaseParameter, helpParameter] true [] [] words
    if isGiven given "--help" then return .help
    return .showDocument (← onlyWord others) (databaseOf given)
  | "status" :: words =>
    let (given, others) ← readWords [databaseParameter, helpParameter] true [] [] words
    if isGiven given "--help" then return .help
    noWord others
    return .status (databaseOf given)
  | "version" :: words =>
    let (given, others) ← readWords [helpParameter] true [] [] words
    if isGiven given "--help" then return .help
    noWord others
    return .version
  | word :: _ => throw (.unknownCommand word)

/-- The request of a command line. -/
def Request.ofWords (words : List String) : Except UsageFault Request := do
  let (given, others) ← readWords [⟨"--version", none, false⟩, helpParameter] false [] [] words
  match given with
  | ("--version", _) :: _ => return .version
  | _ :: _ => return .help
  | [] => Request.ofCommand others

end CodeOutline.Command
