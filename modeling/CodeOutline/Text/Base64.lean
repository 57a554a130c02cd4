import CodeOutline.Text.Utf8

/-!
# Base64

Octets as text in an alphabet of 64 characters. Three octets make four characters; an incomplete last
group is filled up with `=`. Reading is strict: nothing but the alphabet, and after the padding that
completes a group nothing at all.
-/

namespace CodeOutline.Text.Base64

/-- The character of a six-bit value. -/
def digitChar (n : Nat) : Char :=
  if n < 26 then Char.ofNat (0x41 + n)
  else if n < 52 then Char.ofNat (0x61 + (n - 26))
  else if n < 62 then Char.ofNat (0x30 + (n - 52))
  else if n = 62 then '+' else '/'

/-- The six-bit value of a character. -/
def digitValue? (c : Char) : Option Nat :=
  let n := c.toNat
  if 'A' ≤ c && c ≤ 'Z' then some (n - 0x41)
  else if 'a' ≤ c && c ≤ 'z' then some (n - 0x61 + 26)
  else if '0' ≤ c && c ≤ '9' then some (n - 0x30 + 52)
  else if c = '+' then some 62
  else if c = '/' then some 63
  else none

/-- The text of octets. -/
def encode : Octets → List Char
  | a :: b :: c :: rest =>
    let n := (a.toNat * 256 + b.toNat) * 256 + c.toNat
    digitChar (n / 262144) :: digitChar (n / 4096 % 64) :: digitChar (n / 64 % 64) ::
      digitChar (n % 64) :: encode rest
  | [a, b] =>
    let n := (a.toNat * 256 + b.toNat) * 4
    [digitChar (n / 4096), digitChar (n / 64 % 64), digitChar (n % 64), '=']
  | [a] =>
    let n := a.toNat * 16
    [digitChar (n / 64), digitChar (n % 64), '=', '=']
  | [] => []

/-- A reader inside a group of four characters. -/
structure Group where
  /-- The number of characters of the group so far. -/
  size : Nat := 0
  /-- The bits of those characters that belong to the next octet. -/
  bits : Nat := 0
  /-- The number of padding characters since the last character of the alphabet that count. -/
  pads : Nat := 0
  /-- Some padding character has been read. -/
  padded : Bool := false

/-- Decodes the rest of a text, given the octets before it in reverse. Once a padding character has
been read only more of them may follow, up to the one that completes the group. -/
def decodeFrom (done : Octets) (g : Group) : List Char → Option Octets
  | [] => if g.size = 0 then some done.reverse else none
  | '=' :: rest =>
    if 2 ≤ g.size then
      if 4 ≤ g.size + g.pads + 1 then if rest.isEmpty then some done.reverse else none
      else decodeFrom done { g with pads := g.pads + 1, padded := true } rest
    else decodeFrom done { g with padded := true } rest
  | c :: rest =>
    match digitValue? c with
    | none => none
    | some n =>
      if g.padded then none
      else match g.size with
        | 0 => decodeFrom done { size := 1, bits := n } rest
        | 1 => decodeFrom (UInt8.ofNat (g.bits * 4 + n / 16) :: done) { size := 2, bits := n % 16 } rest
        | 2 => decodeFrom (UInt8.ofNat (g.bits * 16 + n / 4) :: done) { size := 3, bits := n % 4 } rest
        | _ => decodeFrom (UInt8.ofNat (g.bits * 64 + n) :: done) {} rest

/-- The octets that a text stands for. -/
def decode (cs : List Char) : Option Octets :=
  if cs.head? = some '=' then none else decodeFrom [] {} cs

/-- The text as strict reading wants it, given the number of characters in the current group and the
padding characters since. Padding counts where it completes a group, and ends the text there; any
other is left out. -/
def tidyFrom (size pads : Nat) : List Char → List Char
  | [] => []
  | '=' :: rest =>
    if 2 ≤ size then
      if 4 ≤ size + pads + 1 then List.replicate (4 - size) '=' else tidyFrom size (pads + 1) rest
    else tidyFrom size pads rest
  | c :: rest =>
    if (digitValue? c).isSome then c :: tidyFrom ((size + 1) % 4) 0 rest else tidyFrom size pads rest

/-- The octets that a text stands for once what does not belong to the alphabet is left out. -/
def decodeLoosely (cs : List Char) : Option Octets :=
  decode (tidyFrom 0 0 cs)

end CodeOutline.Text.Base64
