/-!
# UTF-8

Texts as octets and octets as texts. `decode` is strict and says where the first octet sequence
stands that is no character; `decodeMending` puts a replacement character in the place of each such
sequence. A sequence that begins like a character and breaks off is taken as one.
-/

namespace CodeOutline.Text

/-- A sequence of octets. -/
abbrev Octets := List UInt8

/-- Octets that are no text in an encoding. -/
structure EncodingFault where
  /-- The name of the encoding. -/
  encoding : String
  /-- The position of the first wrong octet. -/
  start : Nat
  /-- The wrong octets. -/
  octets : Octets
  reason : String
  deriving Repr, DecidableEq

/-- Two hexadecimal digits. -/
def octetHex (b : UInt8) : String :=
  String.ofList [Nat.digitChar (b.toNat / 16), Nat.digitChar (b.toNat % 16)]

def EncodingFault.message (f : EncodingFault) : String :=
  let place :=
    match f.octets with
    | [b] => s!"byte 0x{octetHex b} in position {f.start}"
    | _ => s!"bytes in position {f.start}-{f.start + f.octets.length - 1}"
  s!"'{f.encoding}' codec can't decode {place}: {f.reason}"

/-- The character in the place of what cannot be decoded. -/
def replacement : Char := '\uFFFD'

namespace Utf8

/-- The octets of a text. -/
def encode (cs : List Char) : Octets :=
  cs.flatMap String.utf8EncodeChar

/-- What a first octet asks of the octets after it. -/
structure Lead where
  /-- The number of octets that follow. -/
  tails : Nat
  /-- The least second octet; later ones start at `0x80`. -/
  least : Nat
  /-- The greatest second octet; later ones end at `0xBF`. -/
  greatest : Nat
  /-- The bits of the code point in the first octet. -/
  bits : Nat

/-- The lead octets of characters above ASCII. -/
def lead? (octet : UInt8) : Option Lead :=
  let b := octet.toNat
  if 0xC2 ≤ b && b ≤ 0xDF then some ⟨1, 0x80, 0xBF, b - 0xC0⟩
  else if b = 0xE0 then some ⟨2, 0xA0, 0xBF, 0⟩
  else if b = 0xED then some ⟨2, 0x80, 0x9F, 0xD⟩
  else if 0xE1 ≤ b && b ≤ 0xEF then some ⟨2, 0x80, 0xBF, b - 0xE0⟩
  else if b = 0xF0 then some ⟨3, 0x90, 0xBF, 0⟩
  else if 0xF1 ≤ b && b ≤ 0xF3 then some ⟨3, 0x80, 0xBF, b - 0xF0⟩
  else if b = 0xF4 then some ⟨3, 0x80, 0x8F, 4⟩
  else none

/-- The octet lies between the bounds. -/
def within (least greatest : Nat) (octet : UInt8) : Bool :=
  least ≤ octet.toNat && octet.toNat ≤ greatest

/-- The octets that may follow the lead octet, at most as many as it asks for. -/
def Lead.following (lead : Lead) : Octets → Octets
  | second :: rest =>
    if within lead.least lead.greatest second then
      second :: (rest.take (lead.tails - 1)).takeWhile (within 0x80 0xBF)
    else []
  | [] => []

/-- What stands at the start of the octets. -/
inductive Piece where
  | char (c : Char) (size : Nat)
  | fault (size : Nat) (reason : String)

/-- The first piece of a sequence that begins with `first`. -/
def piece (first : UInt8) (rest : Octets) : Piece :=
  if first < 0x80 then .char (Char.ofNat first.toNat) 1
  else match lead? first with
    | none => .fault 1 "invalid start byte"
    | some lead =>
      let tails := lead.following rest
      if tails.length = lead.tails then
        .char (Char.ofNat (tails.foldl (fun n b => n * 64 + b.toNat % 64) lead.bits))
          (tails.length + 1)
      else .fault (tails.length + 1)
        (if (rest.drop tails.length).isEmpty then "unexpected end of data"
          else "invalid continuation byte")

/-- Decodes the rest of a text, given the characters before it in reverse. -/
def decodeFrom (done : List Char) (position : Nat) : Octets → Except EncodingFault (List Char)
  | [] => .ok done.reverse
  | first :: rest =>
    match piece first rest with
    | .char c size => decodeFrom (c :: done) (position + size) (rest.drop (size - 1))
    | .fault size reason => .error ⟨"utf-8", position, (first :: rest).take size, reason⟩
termination_by octets => octets.length
decreasing_by simp only [List.length_cons, List.length_drop]; omega

/-- The text that the octets are. -/
def decode (octets : Octets) : Except EncodingFault (List Char) :=
  decodeFrom [] 0 octets

/-- Decodes the rest of a text, with replacements, given the characters before it in reverse. -/
def mendFrom (done : List Char) : Octets → List Char
  | [] => done.reverse
  | first :: rest =>
    match piece first rest with
    | .char c size => mendFrom (c :: done) (rest.drop (size - 1))
    | .fault size _ => mendFrom (replacement :: done) (rest.drop (size - 1))
termination_by octets => octets.length
decreasing_by all_goals simp only [List.length_cons, List.length_drop]; omega

/-- The text that the octets are, with a replacement character for each sequence that is none. -/
def decodeMending (octets : Octets) : String :=
  String.ofList (mendFrom [] octets)

end Utf8

end CodeOutline.Text
