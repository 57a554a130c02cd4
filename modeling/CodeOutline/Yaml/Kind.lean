import CodeOutline.Text.Pattern

/-!
# Kinds of values

The kind of a node follows from its tag. A plain scalar without a tag has the kind that its text is
written for: numbers in several bases, truth values by several names, dates and moments.
-/

namespace CodeOutline.Yaml

open CodeOutline.Text

/-- The kind of value that a node stands for. -/
inductive Kind where
  | null
  | bool
  | int
  | float
  | binary
  | moment
  | text
  | sequence
  | mapping
  | set
  /-- A sequence of mappings with one entry each. -/
  | entries
  /-- The key whose value's entries are taken over. -/
  | merge
  /-- The key whose value stands for the whole mapping. -/
  | standIn
  /-- A kind that is not known. -/
  | other
  deriving Repr, DecidableEq

namespace Kind

/-- The beginning of the tags of all known kinds. -/
def tagSpace : String := "tag:yaml.org,2002:"

/-- The kinds by the ends of their tags. -/
def known : List (String × Kind) :=
  [("null", null), ("bool", bool), ("int", int), ("float", float), ("binary", binary),
    ("timestamp", moment), ("str", text), ("seq", sequence), ("map", mapping), ("set", set),
    ("omap", entries), ("pairs", entries), ("merge", merge), ("value", standIn)]

/-- The kind that a tag names. -/
def ofTag (tag : String) : Kind :=
  ((known.find? fun k => tag = tagSpace ++ k.1).map (·.2)).getD other

/-! ## Plain scalars -/

/-- The texts that are truth values. -/
def bools : Pattern :=
  .literals ["yes", "Yes", "YES", "no", "No", "NO", "true", "True", "TRUE", "false", "False", "FALSE",
    "on", "On", "ON", "off", "Off", "OFF"]

/-- The texts that are no value. -/
def nulls : Pattern := .literals ["~", "null", "Null", "NULL", ""]

/-- Nothing or a sign. -/
def sign : Pattern := .optional (.among "+-")

/-- A digit or an underscore. -/
def digitOrGap : Pattern := .digit ||| .char '_'

/-- One of the digits up to the given one. -/
def digitTo (last : Char) : Pattern := .one fun c => '0' ≤ c && c ≤ last

/-- The later places of a number to base sixty. -/
def sixtieths : Pattern :=
  .many1 (.char ':' ++ .optional (digitTo '5') ++ .digit)

/-- An integer that starts with a digit other than zero. -/
def counted : Pattern := .one (fun c => '1' ≤ c && c ≤ '9') ++ .star digitOrGap

/-- The texts that are integers: in four bases, or in groups of base 60. -/
def ints : Pattern :=
  sign ++
    ((.literal "0b" ++ .many1 (.among "01_")) |||
      (.char '0' ++ .many1 (digitTo '7' ||| .char '_')) |||
      .char '0' ||| counted |||
      (.literal "0x" ++ .many1 (.one Char.isDigit ||| .among "abcdefABCDEF_")) |||
      (counted ++ sixtieths))

/-- The power of ten behind a decimal. -/
def power : Pattern := .optional (.among "eE" ++ .among "+-" ++ .many1 .digit)

/-- Digits, the first of which is no underscore. -/
def digits : Pattern := .digit ++ .star digitOrGap

/-- The texts that are numbers with a point, in groups of base 60, infinite, or not a number. -/
def floats : Pattern :=
  (sign ++ digits ++ .char '.' ++ .star digitOrGap ++ power) |||
    (.char '.' ++ digits ++ power) |||
    (sign ++ digits ++ sixtieths ++ .char '.' ++ .star digitOrGap) |||
    (sign ++ .literals [".inf", ".Inf", ".INF"]) |||
    .literals [".nan", ".NaN", ".NAN"]

/-- One or two digits. -/
def oneOrTwo : Pattern := .digit ++ .optional .digit

/-- A distance from universal time. -/
def zone : Pattern :=
  .char 'Z' ||| (.among "+-" ++ oneOrTwo ++ .optional (.char ':' ++ .times 2 .digit))

/-- A time of day behind a date. -/
def clock : Pattern :=
  (.among "Tt" ||| .many1 (.among " \t")) ++ oneOrTwo ++ .char ':' ++ .times 2 .digit ++ .char ':' ++
    .times 2 .digit ++ .optional (.char '.' ++ .star .digit) ++
    .optional (.star (.among " \t") ++ zone)

/-- A date with or without a time of day; without one, month and day have two digits. -/
def moments : Pattern :=
  (.times 4 .digit ++ .char '-' ++ .times 2 .digit ++ .char '-' ++ .times 2 .digit) |||
    (.times 4 .digit ++ .char '-' ++ oneOrTwo ++ .char '-' ++ oneOrTwo ++ clock)

/-- The ways of writing each kind. No text is written for two of them. -/
def written : List (Kind × Pattern) :=
  [(bool, bools), (float, floats), (int, ints), (merge, .literal "<<"), (null, nulls),
    (moment, moments), (standIn, .char '=')]

/-- The kind that a text without a tag is written for. A line end at its end is not looked at, but
where it is all there is. -/
def ofPlain (cs : List Char) : Kind :=
  let looked := if cs.length > 1 && cs.getLast? = some '\n' then cs.dropLast else cs
  ((written.find? fun w => w.2.accepts looked).map (·.1)).getD text

end Kind

end CodeOutline.Yaml
