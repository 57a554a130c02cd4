import CodeOutline.Text.Lines
import CodeOutline.Text.Quoted

/-!
# Addresses of services

A service is named by an address with one of two schemes and a host. `checkAddress` takes an address
apart and says what is wrong with it. A host in square brackets must be an address of eight groups, or
of a later form that begins with `v`; a host must not hold characters that stand for the separators of
an address.
-/

namespace CodeOutline.Remote

open CodeOutline.Text

/-- Why an address is refused. -/
inductive AddressFault where
  | unsupported (url : String)
  /-- A bracket in the host has no partner. -/
  | unpairedBracket
  /-- A host in brackets that begins with `v` and is not of that form. -/
  | laterForm
  /-- An address of four octets in brackets. -/
  | fourOctets
  /-- A host in brackets that is no address at all. -/
  | noAddress (host : String)
  /-- A character of the host stands for a separator. -/
  | disguisedSeparator (host : String)
  deriving Repr, DecidableEq

def AddressFault.message : AddressFault → String
  | unsupported url => s!"Unsupported API URL '{url}'. Only https:// and http:// are allowed."
  | unpairedBracket => "Invalid IPv6 URL"
  | laterForm => "IPvFuture address is invalid"
  | fourOctets => "An IPv4 address cannot be in brackets"
  | noAddress host => s!"{quoted host} does not appear to be an IPv4 or IPv6 address"
  | disguisedSeparator host =>
    s!"netloc '{host}' contains invalid characters under NFKC normalization"

/-! ## Hosts in brackets -/

/-- One to four hexadecimal digits. -/
def isGroup (cs : List Char) : Bool :=
  1 ≤ cs.length && cs.length ≤ 4 && cs.all isHexDigit

/-- A decimal number up to 255 without leading zeros. -/
def isOctet (cs : List Char) : Bool :=
  1 ≤ cs.length && cs.length ≤ 3 && cs.all Char.isDigit && (cs.length = 1 || cs.head? != some '0') &&
    cs.foldl (fun n c => n * 10 + (c.toNat - 0x30)) 0 ≤ 255

/-- An address of four octets. -/
def isFourOctets (cs : List Char) : Bool :=
  let parts := piecesFrom '.' [] cs
  parts.length = 4 && parts.all isOctet

/-- The number of groups of a text, `none` if it is no list of groups. The last two groups may be
written as four octets where `octets` allows it. -/
def groupCount? (octets : Bool) (cs : List Char) : Option Nat :=
  if cs.isEmpty then some 0
  else
    let parts := piecesFrom ':' [] cs
    if parts.all isGroup then some parts.length
    else if octets && parts.dropLast.all isGroup && isFourOctets (parts.getLastD []) then
      some (parts.length + 1)
    else none

/-- The text before and after the first two colons in a row. -/
def splitAtGap? : List Char → Option (List Char × List Char)
  | ':' :: ':' :: rest => some ([], rest)
  | c :: rest => (splitAtGap? rest).map fun p => (c :: p.1, p.2)
  | [] => none

/-- An address of eight groups, some of which a gap may stand for. What follows a percent sign names
the zone of the address. -/
def isEightGroups (cs : List Char) : Bool :=
  let groups := cs.takeWhile (· != '%')
  let zoneFits :=
    match cs.dropWhile (· != '%') with
    | [] => true
    | _ :: zone => !zone.isEmpty && !zone.contains '%'
  zoneFits &&
    match splitAtGap? groups with
    | some (before, after) =>
      match groupCount? false before, groupCount? true after with
      | some m, some n => m + n ≤ 7
      | _, _ => false
    | none => groupCount? true groups = some 8

/-- A host of the form that later kinds of address have: a version in hexadecimal digits and a text
on one line. -/
def isLaterForm (cs : List Char) : Bool :=
  let version := (cs.drop 1).takeWhile (· != '.')
  let text := (cs.drop 1).drop (version.length + 1)
  !version.isEmpty && version.all isHexDigit && !text.isEmpty && !text.contains '\n'

/-- Checks what stands in the first brackets of a host. -/
def checkBrackets (host : List Char) : Except AddressFault Unit :=
  if host.contains '[' != host.contains ']' then .error .unpairedBracket
  else if !host.contains '[' then .ok ()
  else
    let inside := ((host.dropWhile (· != '[')).drop 1).takeWhile (· != ']')
    if inside.head? = some 'v' then if isLaterForm inside then .ok () else .error .laterForm
    else if isFourOctets inside then .error .fourOctets
    else if isEightGroups inside then .ok ()
    else .error (.noAddress (String.ofList inside))

/-! ## Addresses -/

/-- The characters that stand for a slash, a question mark, a number sign, an at sign or a colon, alone
or together with others. -/
def disguisedSeparators : List Char :=
  ['\u2047', '\u2048', '\u2049', '\u2100', '\u2101', '\u2105', '\u2106', '\u2A74', '\uFE13', '\uFE16',
    '\uFE55', '\uFE56', '\uFE5F', '\uFE6B', '\uFF03', '\uFF0F', '\uFF1A', '\uFF1F', '\uFF20']

/-- The address as it is taken apart: without control characters and spaces at its start, and without
tabs and line ends. -/
def cleanAddress (url : String) : List Char :=
  (url.toList.dropWhile fun c => c.toNat ≤ 0x20).filter fun c => c != '\t' && c != '\r' && c != '\n'

/-- A character of a scheme. -/
def isSchemeChar (c : Char) : Bool :=
  c.isAlphanum || c == '+' || c == '-' || c == '.'

/-- The scheme of an address in lower case, empty if it has none, and what follows it. -/
def splitScheme (cs : List Char) : List Char × List Char :=
  let scheme := cs.takeWhile (· != ':')
  match cs.drop scheme.length with
  | _ :: rest =>
    if scheme.head?.any Char.isAlpha && scheme.all isSchemeChar then
      (scheme.map Char.toLower, rest)
    else ([], cs)
  | [] => ([], cs)

/-- The host part of what follows the scheme. -/
def hostOf (afterScheme : List Char) : List Char :=
  match afterScheme with
  | '/' :: '/' :: rest => rest.takeWhile fun c => c != '/' && c != '?' && c != '#'
  | _ => []

/-- Checks that an address names a host by one of the two schemes that are allowed. -/
def checkAddress (url : String) : Except AddressFault Unit :=
  let (scheme, afterScheme) := splitScheme (cleanAddress url)
  let host := hostOf afterScheme
  match checkBrackets host with
  | .error fault => .error fault
  | .ok () =>
    if host.any disguisedSeparators.contains then
      .error (.disguisedSeparator (String.ofList host))
    else if [['h', 't', 't', 'p'], ['h', 't', 't', 'p', 's']].contains scheme && !host.isEmpty then
      .ok ()
    else .error (.unsupported url)

end CodeOutline.Remote
