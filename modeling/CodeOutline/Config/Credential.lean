import CodeOutline.Data.Datum
import CodeOutline.Text.Lines

/-!
# Names of credentials

Settings hold no tokens or passwords. A key that is named like one is found by its name alone, in
any letter case, wherever mappings are nested in mappings. They may be nested to any depth; only in a
mapping that stands in itself does the search come to no end.
-/

namespace CodeOutline.Config

open CodeOutline.Data CodeOutline.Text

/-- The letter that a character is a case of; of the letters outside ASCII, those that have a case in
it. -/
def caseless (c : Char) : Char :=
  if c = 'ſ' then 's'
  else if c = '\u212a' then 'k'
  else if c = 'İ' || c = 'ı' then 'i'
  else c.toLower

/-- Words that are part of no other name. -/
def credentialParts : List String :=
  ["apikey", "api_key", "api-key", "apisecret", "api_secret", "api-secret", "password", "passwd",
    "credential"]

/-- Words that are a name, or end one behind an underscore. -/
def credentialWords : List String := ["token", "secret"]

/-- The name of a key is that of a credential. A line end behind it changes nothing. -/
def isCredentialName (name : String) : Bool :=
  let cs := name.toList.map caseless
  let stem := if cs.getLast? = some '\n' then cs.dropLast else cs
  credentialParts.any (fun part => occursIn part.toList cs) ||
    credentialWords.any fun word => stem = word.toList || ('_' :: word.toList).isSuffixOf stem

/-- What a search for credentials stops at. -/
inductive Finding where
  /-- A key is named like a credential; the names of the keys on the way to it, with dots between. -/
  | credential (path : String)
  /-- The name of a key is an integer that is too long to be written. -/
  | longKey
  /-- A mapping stands in itself. -/
  | bottomless
  deriving Repr, DecidableEq

/-- The path of a key below another. What is empty or zero leaves no trace in it. -/
def pathBelow (path : Option String) (key : Datum) : Option String :=
  match path with
  | some path => some (path ++ "." ++ key.display)
  | none => if key.isTrue then some key.display else none

/-- The display of the path of a key below another. -/
def pathText (path : Option String) (key : Datum) : String :=
  (path.map (· ++ ".")).getD "" ++ key.display

mutual

/-- The first finding in a value at a path. -/
def findCredential? (path : Option String) : Datum → Option Finding
  | .map entries => findInEntries? path entries
  | .enclosing true => some .bottomless
  | _ => none

/-- The first finding in the entries of a mapping at a path. -/
def findInEntries? (path : Option String) : List (Datum × Datum) → Option Finding
  | [] => none
  | (key, value) :: rest =>
    if key.hasLongInteger then some .longKey
    else if isCredentialName key.display then some (.credential (pathText path key))
    else (findCredential? (pathBelow path key) value).or (findInEntries? path rest)

end

end CodeOutline.Config
