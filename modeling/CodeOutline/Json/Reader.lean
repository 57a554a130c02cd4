import CodeOutline.Json.Token

/-!
# Reading JSON

A reader goes through the tokens once. It keeps the containers that are open, innermost first, and
knows what may stand next. Of several entries of one name the last counts.
-/

namespace CodeOutline.Json

open CodeOutline.Data CodeOutline.Text

/-- A position in a text as people count it: lines and columns from one. -/
structure Place where
  line : Nat
  column : Nat
  position : Nat
  deriving Repr, DecidableEq

/-- The place of a position. -/
def Place.of (cs : List Char) (position : Nat) : Place :=
  let before := cs.take position
  { line := before.count '\n' + 1
    column := (before.reverse.takeWhile (· != '\n')).length + 1
    position }

/-- Why octets cannot be read as a JSON value. -/
inductive ReadError where
  | encoding (f : EncodingFault)
  | malformed (reason : Reason) (place : Place)
  /-- An integer of too many digits. -/
  | longInteger (digits : Nat)
  deriving Repr, DecidableEq

/-- The message for text that is not JSON. -/
def malformedMessage (reason : Reason) (place : Place) : String :=
  s!"{reason.message}: line {place.line} column {place.column} (char {place.position})"

/-- A container whose end has not been read. -/
inductive Open where
  /-- The items so far, last first. -/
  | list (items : List Datum)
  /-- The entries so far and the name of the next. -/
  | map (entries : List (Datum × Datum)) (name : Datum)

/-- What may stand next. -/
inductive Expect where
  | value
  /-- A value or the end of the list. -/
  | firstItem
  | name
  /-- A name or the end of the map. -/
  | firstName
  | colon
  /-- A comma or the end of the innermost container; the end of the text where none is open. -/
  | separator

/-- A reader at some point of the text. -/
structure Reading where
  expect : Expect
  containers : List Open
  /-- The value of the whole text, once it is complete. -/
  result : Datum := .null

/-- The reader after a complete value. -/
def Reading.complete (r : Reading) (d : Datum) : Reading :=
  match r.containers with
  | [] => { r with expect := .separator, result := d }
  | .list items :: outer => { r with expect := .separator, containers := .list (d :: items) :: outer }
  | .map entries name :: outer =>
    { r with expect := .separator, containers := .map (Datum.put name d entries) name :: outer }

/-- The reader after the end of the innermost container, if `c` closes it. -/
def Reading.close? (r : Reading) (c : Char) : Option Reading :=
  match r.containers with
  | .list items :: outer =>
    if c = ']' then some ({ r with containers := outer }.complete (.list items.reverse)) else none
  | .map entries _ :: outer =>
    if c = '\x7d' then some ({ r with containers := outer }.complete (.map entries)) else none
  | [] => none

/-- The reader after the token that begins a value. -/
def Reading.begin (r : Reading) (t : Token) : Except Fault Reading :=
  match t.lexeme with
  | .scalar d => .ok (r.complete d)
  | .fault f => .error f
  | .symbol c =>
    if c = '[' then .ok { r with expect := .firstItem, containers := .list [] :: r.containers }
    else if c = '\x7b' then
      .ok { r with expect := .firstName, containers := .map [] .null :: r.containers }
    else .error (.malformed .noValue t.start)

/-- The reader after the token that is a name. -/
def Reading.named (r : Reading) (t : Token) : Except Fault Reading :=
  let missing : Except Fault Reading := .error (.malformed .noName t.start)
  match t.lexeme with
  | .scalar (.text s) =>
    match r.containers with
    | .map entries _ :: outer =>
      .ok { r with expect := .colon, containers := .map entries (.text s) :: outer }
    | _ => missing
  | .fault (.malformed reason position) =>
    if reason = .noValue then missing else .error (.malformed reason position)
  | _ => missing

/-- The reader after a token between two parts of a container. -/
def Reading.separate (r : Reading) (t : Token) : Except Fault Reading :=
  match r.containers, t.lexeme with
  | [], _ => .error (.malformed .extraData t.start)
  | inner :: _, .symbol c =>
    if c = ',' then
      .ok { r with expect := match inner with | .list _ => .value | .map .. => .name }
    else match r.close? c with
      | some r => .ok r
      | none => .error (.malformed .noComma t.start)
  | _, _ => .error (.malformed .noComma t.start)

/-- The reader after the next token. -/
def Reading.step (r : Reading) (t : Token) : Except Fault Reading :=
  let closed := match t.lexeme with | .symbol c => r.close? c | _ => none
  match r.expect with
  | .value => r.begin t
  | .firstItem => match closed with | some r => .ok r | none => r.begin t
  | .name => r.named t
  | .firstName => match closed with | some r => .ok r | none => r.named t
  | .colon =>
    match t.lexeme with
    | .symbol ':' => .ok { r with expect := .value }
    | _ => .error (.malformed .noColon t.start)
  | .separator => r.separate t

/-- The value when the text ends. -/
def Reading.finish (r : Reading) (length : Nat) : Except Fault Datum :=
  match r.expect, r.containers with
  | .separator, [] => .ok r.result
  | .separator, _ => .error (.malformed .noComma length)
  | .colon, _ => .error (.malformed .noColon length)
  | .name, _ | .firstName, _ => .error (.malformed .noName length)
  | .value, _ | .firstItem, _ => .error (.malformed .noValue length)

/-- The value that the tokens make; `length` is the length of the text. -/
def readTokens (length : Nat) (r : Reading) : List Token → Except Fault Datum
  | [] => r.finish length
  | t :: rest =>
    match r.step t with
    | .ok r => readTokens length r rest
    | .error f => .error f

/-- The value that a text is. -/
def readText (cs : List Char) : Except ReadError Datum :=
  match readTokens cs.length ⟨.value, [], .null⟩ (tokens cs) with
  | .ok d => .ok d
  | .error (.malformed reason position) => .error (.malformed reason (Place.of cs position))
  | .error (.longInteger digits) => .error (.longInteger digits)

/-- The value that a document is. A byte order mark is no part of its text. -/
def read (octets : Octets) : Except ReadError Datum :=
  match decode octets with
  | .ok cs => readText cs
  | .error f => .error (.encoding f)

end CodeOutline.Json
