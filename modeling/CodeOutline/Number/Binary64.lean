/-!
# Binary floating-point numbers of 64 bits

A finite number is kept as its exact value, a mantissa times a power of two, so every operation is an
operation on integers followed by one rounding to nearest, ties to even.

`Binary64.text` writes a number with the fewest decimal digits that read back as the same number.
-/

namespace CodeOutline.Number

/-- A floating-point number: `finite` is the mantissa times two to the exponent, with a sign. -/
inductive Binary64 where
  | nan
  | infinite (negative : Bool)
  /-- `mantissa * 2 ^ exponent`. Either the mantissa has 53 bits or the exponent is the least. -/
  | finite (negative : Bool) (mantissa : Nat) (exponent : Int)
  deriving Repr, DecidableEq

namespace Binary64

/-- The exponent of the smallest positive number. -/
def leastExponent : Int := -1074

/-- The exponent of the largest finite numbers. -/
def greatestExponent : Int := 971

def zero : Binary64 := finite false 0 leastExponent

/-- A power of two. -/
def twoTo (n : Nat) : Nat := Nat.pow 2 n

/-- A power of ten. -/
def tenTo (n : Nat) : Nat := Nat.pow 10 n

/-- The integer nearest to a quotient; a tie goes to the even one. -/
def roundQuotient (num den : Nat) : Nat :=
  let q := num / den
  let twice := 2 * (num % den)
  if twice < den then q
  else if den < twice then q + 1
  else q + q % 2

/-- A quotient times a power of two, as a quotient. -/
def scale (num den : Nat) (e : Int) : Nat × Nat :=
  (num * twoTo e.toNat, den * twoTo (-e).toNat)

/-- The number nearest to `num / den`. -/
def ofQuotient (negative : Bool) (num den : Nat) : Binary64 :=
  if num = 0 then finite negative 0 leastExponent
  else
    let guess : Int := num.log2 - den.log2 - 52
    let (n, d) := scale num den (-guess)
    let exponent := max leastExponent (if n / d < twoTo 52 then guess - 1 else guess)
    let (n, d) := scale num den (-exponent)
    let mantissa := roundQuotient n d
    let (mantissa, exponent) :=
      if mantissa = twoTo 53 then (twoTo 52, exponent + 1) else (mantissa, exponent)
    if exponent > greatestExponent then infinite negative else finite negative mantissa exponent

/-- The number nearest to `digits * 10 ^ exponent`. Exponents so far out that the answer is zero or
infinite whatever the digits are never raise ten to a power. -/
def ofDecimal (negative : Bool) (digits : Nat) (exponent : Int) : Binary64 :=
  let magnitude : Int := (Nat.toDigits 10 digits).length + exponent
  if digits = 0 || magnitude < -400 then finite negative 0 leastExponent
  else if magnitude > 400 then infinite negative
  else ofQuotient negative (digits * tenTo exponent.toNat) (tenTo (-exponent).toNat)

/-- The number nearest to `mantissa * 2 ^ exponent`. -/
def ofScaled (mantissa : Int) (exponent : Int) : Binary64 :=
  let (n, d) := scale mantissa.natAbs 1 exponent
  ofQuotient (mantissa < 0) n d

/-- The number nearest to an integer, if that is finite. -/
def ofInt? (i : Int) : Option Binary64 :=
  match ofQuotient (i < 0) i.natAbs 1 with
  | finite negative m e => some (finite negative m e)
  | _ => none

/-- The mantissa with its sign. -/
def signed (negative : Bool) (mantissa : Nat) : Int :=
  if negative then -mantissa else mantissa

def isZero : Binary64 → Bool
  | finite _ m _ => m == 0
  | _ => false

/-- Less than or equal to zero; false of `nan`. -/
def isNonPositive : Binary64 → Bool
  | nan => false
  | infinite negative => negative
  | finite negative m _ => negative || m == 0

/-- The number with the other sign. -/
def neg : Binary64 → Binary64
  | nan => nan
  | infinite negative => infinite !negative
  | finite negative m e => finite (!negative) m e

/-- The sum, rounded to the nearest number, ties to the even mantissa. -/
def add : Binary64 → Binary64 → Binary64
  | nan, _ | _, nan => nan
  | infinite a, infinite b => if a = b then infinite a else nan
  | infinite a, finite .. | finite .., infinite a => infinite a
  | finite s m e, finite t n f =>
    if m = 0 && n = 0 then finite (s && t) 0 leastExponent
    else
      let least := min e f
      ofScaled (signed s m * twoTo (e - least).toNat + signed t n * twoTo (f - least).toNat) least

/-- The product of two finite numbers, or of one that is infinite and one that is not zero. -/
def mul : Binary64 → Binary64 → Binary64
  | nan, _ | _, nan => nan
  | infinite a, infinite b => infinite (a != b)
  | infinite a, finite s m _ | finite s m _, infinite a => if m = 0 then nan else infinite (a != s)
  | finite s m e, finite t n f =>
    if m = 0 || n = 0 then finite (s != t) 0 leastExponent
    else ofScaled (signed (s != t) (m * n)) (e + f)

/-- The integer next to the number on the side of zero. -/
def truncate? : Binary64 → Option Int
  | finite negative m e =>
    let (n, d) := scale m 1 e
    some (signed negative (n / d))
  | _ => none

/-- The number as an integer, if it is one. -/
def toInt? : Binary64 → Option Int
  | finite negative m e =>
    let (n, d) := scale m 1 e
    if n % d = 0 then some (signed negative (n / d)) else none
  | _ => none

/-! ## Decimal text -/

/-- The place of the decimal point of `num / den`: the least `p` with `num / den < 10 ^ p`, searched
upwards from `p`. -/
def pointFrom (num den : Nat) : Nat → Int → Int
  | 0, p => p
  | fuel + 1, p =>
    if num * tenTo (-p).toNat < den * tenTo p.toNat then p else pointFrom num den fuel (p + 1)

/-- The place of the decimal point of a positive number: it is below `10 ^ p` and not below
`10 ^ (p - 1)`. -/
def point (num den : Nat) : Int :=
  let lower : Int := ((num.log2 : Int) - den.log2 - 1) * 30103 / 100000 - 1
  pointFrom num den 8 lower

/-- The decimal number with `count` digits that reads back as `mantissa * 2 ^ exponent` and is
nearest to it, as digits and a power of ten. -/
def decimalWith? (mantissa : Nat) (exponent : Int) (count : Nat) : Option (Nat × Int) :=
  let (num, den) := scale mantissa 1 exponent
  let power := point num den - count
  let num := num * tenTo (-power).toNat
  let den := den * tenTo power.toNat
  let below := num / den
  let near := roundQuotient num den
  let far := if near = below then below + 1 else below
  let readsBack (digits : Nat) : Bool := ofDecimal false digits power = finite false mantissa exponent
  if readsBack near then some (near, power)
  else if readsBack far then some (far, power)
  else none

/-- The shortest decimal that reads back as a positive number; seventeen digits always do. -/
def shortest (mantissa : Nat) (exponent : Int) : Nat × Int :=
  ((List.range 17).findSome? fun n => decimalWith? mantissa exponent (n + 1)).getD (0, 0)

/-- Digits without trailing zeros. -/
def significant (digits : List Char) : List Char :=
  (digits.reverse.dropWhile (· == '0')).reverse

/-- An exponent with its sign and at least two digits. -/
def exponentText (e : Int) : List Char :=
  let digits := Nat.toDigits 10 e.natAbs
  (if e < 0 then '-' else '+') :: (if digits.length < 2 then '0' :: digits else digits)

/-- Lays out digits with the decimal point before place `point`. The point is written in its place
for numbers from `10 ^ -4` up to `10 ^ 16`, otherwise after the first digit with an exponent. -/
def layout (digits : List Char) (point : Int) : List Char :=
  if -4 < point && point ≤ 16 then
    if point ≤ 0 then ['0', '.'] ++ List.replicate (-point).toNat '0' ++ digits
    else
      let n := point.toNat
      let whole := digits.take n ++ List.replicate (n - digits.length) '0'
      let rest := digits.drop n
      whole ++ '.' :: (if rest.isEmpty then ['0'] else rest)
  else
    let tail := digits.drop 1
    digits.take 1 ++ (if tail.isEmpty then [] else '.' :: tail) ++ 'e' :: exponentText (point - 1)

/-- The number in decimal. -/
def text : Binary64 → String
  | nan => "nan"
  | infinite negative => if negative then "-inf" else "inf"
  | finite negative m e =>
    let body :=
      if m = 0 then ['0', '.', '0']
      else
        let (digits, power) := shortest m e
        let written := Nat.toDigits 10 digits
        layout (significant written) (written.length + power)
    String.ofList (if negative then '-' :: body else body)

end Binary64

end CodeOutline.Number
