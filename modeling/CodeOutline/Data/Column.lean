import CodeOutline.Data.Datum

/-!
# Dynamic values in text columns

What a dynamic value becomes in a column of text: texts are kept, numbers are written out, with
fifteen digits where they are no integers, and containers do not fit.
-/

namespace CodeOutline.Data

open CodeOutline.Number

/-- Why a value does not fit into a column. -/
inductive ColumnFault where
  /-- The integer does not fit into 64 bits. -/
  | tooLarge
  /-- The position of the value among those of the statement, and the name of its type. -/
  | unsupported (position : Nat) (typeName : String)
  deriving Repr, DecidableEq

def ColumnFault.message : ColumnFault → String
  | tooLarge => "Python int too large to convert to SQLite INTEGER"
  | unsupported position typeName =>
    s!"Error binding parameter {position}: type '{typeName}' is not supported"

/-- The number of significant digits that a column keeps. -/
def columnDigits : Nat := 15

/-- A positive finite number with `columnDigits` digits, a point, and an exponent where it is below
`10 ^ -4` or has more digits before the point. -/
def columnFloat (mantissa : Nat) (exponent : Int) : List Char :=
  let (num, den) := Binary64.scale mantissa 1 exponent
  let guess := Binary64.point num den
  let power := guess - columnDigits
  let rounded := Binary64.roundQuotient (num * Binary64.tenTo (-power).toNat) (den * Binary64.tenTo power.toNat)
  let written := Nat.toDigits 10 rounded
  let point := written.length + power
  let digits := Binary64.significant written
  if -4 < point && point ≤ columnDigits then Binary64.layout digits point
  else
    let tail := digits.drop 1
    digits.take 1 ++ '.' :: (if tail.isEmpty then ['0'] else tail) ++
      'e' :: Binary64.exponentText (point - 1)

/-- The integers that a column takes lie between the negative of this number and the number before
it. -/
def columnReach : Int := Binary64.twoTo 63

/-- What the value is in a column of text; `position` is its place in the statement. -/
def Datum.column? (position : Nat) (d : Datum) : Except ColumnFault (Option String) :=
  match d with
  | .null => .ok none
  | .text s => .ok (some s)
  | .bool b => .ok (some (if b then "1" else "0"))
  | .int i => if -columnReach ≤ i ∧ i < columnReach then .ok (some (toString i)) else .error .tooLarge
  | .float .nan => .ok none
  | .float (.infinite negative) => .ok (some (if negative then "-Inf" else "Inf"))
  | .float (.finite negative m e) =>
    if m = 0 then .ok (some "0.0")
    else
      let body := columnFloat m e
      .ok (some (String.ofList (if negative then '-' :: body else body)))
  | d => .error (.unsupported position d.typeName)

end CodeOutline.Data
