import CodeOutline.Text.Utf8

/-!
# Encodings of JSON

A JSON document comes as octets in UTF-8, UTF-16 or UTF-32, of either order. A byte order mark at the
start tells which; without one the zero octets among the first four do, since a document starts with
an ASCII character.

Texts are well-formed Unicode here and everywhere in the library. Halves of surrogate pairs that stand
alone become replacement characters; what becomes of a text that keeps them, which can neither be
stored nor written, is left out.
-/

namespace CodeOutline.Json

open CodeOutline.Text

/-- The order of the octets of a unit. -/
inductive Order where
  | little
  | big
  deriving Repr, DecidableEq

/-- A way in which a text can have been turned into octets. -/
inductive Encoding where
  | utf8
  | utf16 (order : Order)
  | utf32 (order : Order)
  deriving Repr, DecidableEq

def Order.name : Order → String
  | .little => "le"
  | .big => "be"

def Encoding.name : Encoding → String
  | .utf8 => "utf-8"
  | .utf16 order => "utf-16-" ++ order.name
  | .utf32 order => "utf-32-" ++ order.name

/-- The encoding of a document and the length of its byte order mark. -/
def detect (octets : Octets) : Encoding × Nat :=
  match octets with
  | 0x00 :: 0x00 :: 0xFE :: 0xFF :: _ => (.utf32 .big, 4)
  | 0xFF :: 0xFE :: 0x00 :: 0x00 :: _ => (.utf32 .little, 4)
  | 0xFE :: 0xFF :: _ => (.utf16 .big, 2)
  | 0xFF :: 0xFE :: _ => (.utf16 .little, 2)
  | 0xEF :: 0xBB :: 0xBF :: _ => (.utf8, 3)
  | 0x00 :: 0x00 :: _ :: _ :: _ => (.utf32 .big, 0)
  | 0x00 :: _ :: _ :: _ :: _ => (.utf16 .big, 0)
  | _ :: 0x00 :: 0x00 :: 0x00 :: _ => (.utf32 .little, 0)
  | _ :: 0x00 :: _ :: _ :: _ => (.utf16 .little, 0)
  | [0x00, _] => (.utf16 .big, 0)
  | [_, 0x00] => (.utf16 .little, 0)
  | _ => (.utf8, 0)

/-- The unit that two octets are. -/
def unit16 (order : Order) (a b : UInt8) : Nat :=
  match order with
  | .little => b.toNat * 256 + a.toNat
  | .big => a.toNat * 256 + b.toNat

/-- The code point that four octets are. -/
def unit32 (order : Order) (a b c d : UInt8) : Nat :=
  match order with
  | .little => unit16 .little c d * 65536 + unit16 .little a b
  | .big => unit16 .big a b * 65536 + unit16 .big c d

/-- The first half of a surrogate pair. -/
def isHighSurrogate (n : Nat) : Bool := 0xD800 ≤ n && n ≤ 0xDBFF

/-- The second half of a surrogate pair. -/
def isLowSurrogate (n : Nat) : Bool := 0xDC00 ≤ n && n ≤ 0xDFFF

/-- The character of a surrogate pair. -/
def joinSurrogates (high low : Nat) : Char :=
  Char.ofNat (0x10000 + (high - 0xD800) * 0x400 + (low - 0xDC00))

/-- The character at a code point. Half a surrogate pair is none and is replaced. -/
def charOf (n : Nat) : Char :=
  if isHighSurrogate n || isLowSurrogate n then replacement else Char.ofNat n

/-- The units of a text in UTF-16, given those before it in reverse. -/
def units16 (order : Order) (done : List Nat) (position : Nat) :
    Octets → Except EncodingFault (List Nat)
  | [] => .ok done.reverse
  | [a] => .error ⟨(Encoding.utf16 order).name, position, [a], "truncated data"⟩
  | a :: b :: rest => units16 order (unit16 order a b :: done) (position + 2) rest

/-- The characters that units of UTF-16 are, given those before them in reverse. -/
def joinUnits (done : List Char) : List Nat → List Char
  | [] => done.reverse
  | high :: low :: rest =>
    if isHighSurrogate high && isLowSurrogate low then
      joinUnits (joinSurrogates high low :: done) rest
    else joinUnits (charOf high :: done) (low :: rest)
  | [n] => (charOf n :: done).reverse

/-- The characters of a text in UTF-32, given those before it in reverse. -/
def chars32 (order : Order) (done : List Char) (position : Nat) :
    Octets → Except EncodingFault (List Char)
  | [] => .ok done.reverse
  | a :: b :: c :: d :: rest =>
    let n := unit32 order a b c d
    if n < 0x110000 then chars32 order (charOf n :: done) (position + 4) rest
    else .error ⟨(Encoding.utf32 order).name, position, [a, b, c, d],
      "code point not in range(0x110000)"⟩
  | octets => .error ⟨(Encoding.utf32 order).name, position, octets, "truncated data"⟩

/-- Half a surrogate pair written as three octets of UTF-8. -/
def encodedSurrogate (octets : Octets) : Bool :=
  match octets with
  | a :: b :: c :: _ => a == 0xED && Utf8.within 0xA0 0xBF b && Utf8.within 0x80 0xBF c
  | _ => false

/-- The characters of a text in UTF-8 that may hold halves of surrogate pairs, given the characters
before it in reverse. -/
def chars8 (done : List Char) (position : Nat) : Octets → Except EncodingFault (List Char)
  | [] => .ok done.reverse
  | first :: rest =>
    match Utf8.piece first rest with
    | .char c size => chars8 (c :: done) (position + size) (rest.drop (size - 1))
    | .fault size reason =>
      if encodedSurrogate (first :: rest) then
        chars8 (replacement :: done) (position + 3) (rest.drop 2)
      else .error ⟨"utf-8", position, (first :: rest).take size, reason⟩
termination_by octets => octets.length
decreasing_by all_goals simp only [List.length_cons, List.length_drop]; omega

/-- The text of a document, without its byte order mark. Positions in a fault count from the start of
the document, in UTF-8 from behind the mark. -/
def decode (octets : Octets) : Except EncodingFault (List Char) :=
  let (encoding, mark) := detect octets
  let body := octets.drop mark
  match encoding with
  | .utf8 => chars8 [] 0 body
  | .utf16 order => (units16 order [] mark body).map (joinUnits [])
  | .utf32 order => chars32 order [] mark body

end CodeOutline.Json
