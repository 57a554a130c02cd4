/-!
# Dates and moments

Dates of the proleptic Gregorian calendar from year 1 to year 9999, and moments on them with or
without a distance from universal time.
-/

namespace CodeOutline.Data

/-- A day of the calendar. -/
structure Date where
  year : Nat
  month : Nat
  day : Nat
  deriving Repr, DecidableEq

/-- A time of day on a date. -/
structure Moment where
  date : Date
  hour : Nat
  minute : Nat
  second : Nat
  microsecond : Nat
  /-- Minutes ahead of universal time; `none` for a moment of no known place. -/
  offset : Option Int
  deriving Repr, DecidableEq

/-- Why numbers make no date or moment. -/
inductive MomentFault where
  | year (n : Nat)
  | month
  | day
  | hour
  | minute
  | second
  | offset (minutes : Int)
  deriving Repr, DecidableEq

/-- Digits padded with zeros on the left. -/
def padded (width n : Nat) : String :=
  let digits := Nat.toDigits 10 n
  String.ofList (List.replicate (width - digits.length) '0' ++ digits)

def isLeapYear (year : Nat) : Bool :=
  year % 4 = 0 && (year % 100 ≠ 0 || year % 400 = 0)

/-- The days of a month. -/
def daysOfMonth (year month : Nat) : Nat :=
  match month with
  | 2 => if isLeapYear year then 29 else 28
  | 4 | 6 | 9 | 11 => 30
  | _ => 31

/-- A distance of minutes as whole days and the seconds above them. -/
def daysAndSeconds (minutes : Int) : Int × Int :=
  (minutes.fdiv 1440, minutes.fmod 1440 * 60)

/-- A distance of time, written as a call. -/
def distanceLiteral (minutes : Int) : String :=
  let (days, seconds) := daysAndSeconds minutes
  let parts := (if days = 0 then [] else [s!"days={days}"]) ++
    (if seconds = 0 then [] else [s!"seconds={seconds}"])
  let inside := if parts.isEmpty then "0" else ", ".intercalate parts
  s!"datetime.timedelta({inside})"

def MomentFault.message : MomentFault → String
  | year n => s!"year {n} is out of range"
  | month => "month must be in 1..12"
  | day => "day is out of range for month"
  | hour => "hour must be in 0..23"
  | minute => "minute must be in 0..59"
  | second => "second must be in 0..59"
  | offset minutes =>
    "offset must be a timedelta strictly between -timedelta(hours=24) and timedelta(hours=24), not "
      ++ distanceLiteral minutes ++ "."

namespace Date

/-- The day with these numbers, if there is one. -/
def make (year month day : Nat) : Except MomentFault Date :=
  if year < 1 || 9999 < year then .error (.year year)
  else if month < 1 || 12 < month then .error .month
  else if day < 1 || daysOfMonth year month < day then .error .day
  else .ok ⟨year, month, day⟩

/-- Year, month and day with hyphens between them. -/
def text (d : Date) : String :=
  s!"{padded 4 d.year}-{padded 2 d.month}-{padded 2 d.day}"

/-- The date written as a call. -/
def literal (d : Date) : String :=
  s!"datetime.date({d.year}, {d.month}, {d.day})"

/-- Days since the day before the first. -/
def dayNumber (d : Date) : Nat :=
  let before := d.year - 1
  before * 365 + before / 4 - before / 100 + before / 400 +
    (List.range (d.month - 1)).foldl (fun n m => n + daysOfMonth d.year (m + 1)) 0 + d.day

end Date

namespace Moment

/-- The time with these numbers, if there is one. -/
def make (year month day hour minute second microsecond : Nat) (offset : Option Int) :
    Except MomentFault Moment := do
  match offset with
  | some minutes => if minutes.natAbs ≥ 1440 then throw (.offset minutes)
  | none => pure ()
  let date ← Date.make year month day
  if hour > 23 then throw .hour
  if minute > 59 then throw .minute
  if second > 59 then throw .second
  return { date, hour, minute, second, microsecond, offset }

/-- The distance from universal time, as it is written behind a time. -/
def offsetText (minutes : Int) : String :=
  let n := minutes.natAbs
  (if minutes < 0 then "-" else "+") ++ s!"{padded 2 (n / 60)}:{padded 2 (n % 60)}"

/-- The date and the time of day, with a fraction and an offset if there are any. -/
def text (m : Moment) : String :=
  s!"{m.date.text} {padded 2 m.hour}:{padded 2 m.minute}:{padded 2 m.second}" ++
    (if m.microsecond = 0 then "" else "." ++ padded 6 m.microsecond) ++
    ((m.offset.map offsetText).getD "")

/-- The moment written as a call. Seconds and microseconds are left out where they are zero. -/
def literal (m : Moment) : String :=
  let zone :=
    match m.offset with
    | none => ""
    | some 0 => ", tzinfo=datetime.timezone.utc"
    | some minutes => s!", tzinfo=datetime.timezone({distanceLiteral minutes})"
  s!"datetime.datetime({m.date.year}, {m.date.month}, {m.date.day}, {m.hour}, {m.minute}" ++
    (if m.second = 0 && m.microsecond = 0 then "" else s!", {m.second}") ++
    (if m.microsecond = 0 then "" else s!", {m.microsecond}") ++ zone ++ ")"

/-- Microseconds since the day before the first, in universal time where the offset is known. -/
def instant (m : Moment) : Int :=
  let minutes : Int := (m.date.dayNumber * 24 + m.hour) * 60 + m.minute - m.offset.getD 0
  (minutes * 60 + m.second) * 1000000 + m.microsecond

end Moment

end CodeOutline.Data
