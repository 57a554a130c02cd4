import CodeOutline.Data.Moment
import CodeOutline.Number.Reading
import CodeOutline.Text.Quoted

/-!
# Dynamic values

The values that a data document holds before anything is known about their shape: what a JSON text or
a settings file says. A value has a display text, in which the texts inside containers are quoted,
and a truth value.
-/

namespace CodeOutline.Data

open CodeOutline.Number CodeOutline.Text

/-- A value of a data format. Entries keep the order in which their keys first appeared. -/
inductive Datum where
  | null
  | bool (b : Bool)
  | int (i : Int)
  | float (x : Binary64)
  | text (s : String)
  | bytes (octets : List UInt8)
  | date (d : Date)
  | moment (m : Moment)
  | list (items : List Datum)
  | pair (first second : Datum)
  | set (items : List Datum)
  /-- Entries in the order in which their keys were first given. -/
  | map (entries : List (Datum × Datum))
  /-- The list or map that the value itself stands in. -/
  | enclosing (isMap : Bool)
  deriving Repr

namespace Datum

/-- The name of the value's type. -/
def typeName : Datum → String
  | null => "NoneType"
  | bool _ => "bool"
  | int _ => "int"
  | float _ => "float"
  | text _ => "str"
  | bytes _ => "bytes"
  | date _ => "datetime.date"
  | moment _ => "datetime.datetime"
  | list _ => "list"
  | pair .. => "tuple"
  | set _ => "set"
  | map _ => "dict"
  | enclosing isMap => if isMap then "dict" else "list"

/-- Zero and what is empty are false, all else is true. -/
def isTrue : Datum → Bool
  | null => false
  | bool b => b
  | int i => i != 0
  | float x => !x.isZero
  | text s => !s.isEmpty
  | bytes octets => !octets.isEmpty
  | list items => !items.isEmpty
  | set items => !items.isEmpty
  | map entries => !entries.isEmpty
  | date _ | moment _ | pair .. | enclosing _ => true

/-! ## Display -/

/-- One octet inside a byte literal. -/
def octetLiteral (quote : Char) (octet : UInt8) : List Char :=
  let c := Char.ofNat octet.toNat
  if c = quote || c = '\\' then ['\\', c]
  else if c = '\n' then ['\\', 'n']
  else if c = '\r' then ['\\', 'r']
  else if c = '\t' then ['\\', 't']
  else if 0x20 ≤ octet.toNat && octet.toNat < 0x7F then [c]
  else '\\' :: 'x' :: hexDigits 2 octet.toNat

/-- Octets in quotes. -/
def bytesLiteral (octets : List UInt8) : String :=
  let quote := if octets.contains 0x27 && !octets.contains 0x22 then '"' else '\''
  String.ofList ('b' :: quote :: octets.flatMap (octetLiteral quote) ++ [quote])

def boolText (b : Bool) : String := if b then "True" else "False"

/-- Texts with commas between them. -/
def commas (parts : List String) : String := ", ".intercalate parts

/-- Parts between braces. -/
def inBraces (parts : List String) : String := "\x7b" ++ commas parts ++ "\x7d"

mutual

/-- The value as it is written inside a container. -/
def literal : Datum → String
  | null => "None"
  | bool b => boolText b
  | int i => toString i
  | float x => x.text
  | text s => quoted s
  | bytes octets => bytesLiteral octets
  | date d => d.literal
  | moment m => m.literal
  | list items => "[" ++ commas (literals items) ++ "]"
  | pair a b => "(" ++ commas [a.literal, b.literal] ++ ")"
  | set items => if items.isEmpty then "set()" else inBraces (literals items)
  | map entries => inBraces (entryLiterals entries)
  | enclosing isMap => if isMap then inBraces ["..."] else "[...]"

/-- Each of the values as it is written inside a container. -/
def literals : List Datum → List String
  | [] => []
  | d :: rest => d.literal :: literals rest

/-- Each of the entries as it is written inside a map. -/
def entryLiterals : List (Datum × Datum) → List String
  | [] => []
  | (k, v) :: rest => (k.literal ++ ": " ++ v.literal) :: entryLiterals rest

end

/-- The value as a text of its own: texts, dates and moments stand for themselves. -/
def display : Datum → String
  | text s => s
  | date d => d.text
  | moment m => m.text
  | d => d.literal

/-- An integer has more digits than may be written. -/
def isLongInteger (i : Int) : Bool :=
  Binary64.tenTo digitLimit ≤ i.natAbs

mutual

/-- The value cannot be displayed, since an integer in it is too long. -/
def hasLongInteger : Datum → Bool
  | int i => isLongInteger i
  | list items | set items => anyLongInteger items
  | pair a b => a.hasLongInteger || b.hasLongInteger
  | map entries => entriesHaveLongInteger entries
  | _ => false

/-- One of the values cannot be displayed. -/
def anyLongInteger : List Datum → Bool
  | [] => false
  | d :: rest => d.hasLongInteger || anyLongInteger rest

/-- One of the entries cannot be displayed. -/
def entriesHaveLongInteger : List (Datum × Datum) → Bool
  | [] => false
  | (k, v) :: rest => k.hasLongInteger || v.hasLongInteger || entriesHaveLongInteger rest

end

/-! ## Maps -/

/-- What tells two keys of a map apart. Numbers are one key where they are equal, whatever their
types. The value that is no number is one key too, also where it is spelled `nan` under a tag. -/
inductive Key where
  | null
  | int (i : Int)
  | float (x : Binary64)
  | text (s : String)
  | bytes (octets : List UInt8)
  | date (d : Date)
  | moment (local? : Bool) (instant : Int)
  deriving Repr, DecidableEq

/-- The key that the value is; containers are none. -/
def key? : Datum → Option Key
  | null => some .null
  | bool b => some (.int (if b then 1 else 0))
  | int i => some (.int i)
  | float x => some (match x.toInt? with | some i => .int i | none => .float x)
  | text s => some (.text s)
  | bytes octets => some (.bytes octets)
  | date d => some (.date d)
  | moment m => some (.moment m.offset.isNone m.instant)
  | list _ | pair .. | set _ | map _ | enclosing _ => none

/-- The two values are the same key. -/
def sameKey (a b : Datum) : Bool :=
  match a.key?, b.key? with
  | some k, some l => k = l
  | _, _ => false

/-- The entries with one value put in. A key that is already there keeps its place and its spelling. -/
def put (k v : Datum) : List (Datum × Datum) → List (Datum × Datum)
  | [] => [(k, v)]
  | (l, w) :: rest => if sameKey l k then (l, v) :: rest else (l, w) :: put k v rest

/-- The value under a key. -/
def find? (k : Datum) (entries : List (Datum × Datum)) : Option Datum :=
  (entries.find? fun e => sameKey e.1 k).map (·.2)

/-- The value under a name. -/
def get? (name : String) (entries : List (Datum × Datum)) : Option Datum :=
  find? (.text name) entries

end Datum

end CodeOutline.Data
