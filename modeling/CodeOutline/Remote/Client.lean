import CodeOutline.Remote.Address
import CodeOutline.Remote.Network
import CodeOutline.Text.Base64
import CodeOutline.Text.Blank
import CodeOutline.Text.Lines
import CodeOutline.Text.Percent

/-!
# The client

Asks the hosting service for a repository's metadata, its files, and the text of a file. The access
token goes into the authorization of each request and nowhere else.

The listing starts at a base path and goes into directories. A failure at the base path is the
listing's failure; below it a directory that cannot be listed is reported and left out. Directories
may be nested to any depth; only those that contain each other have no listing.
-/

namespace CodeOutline.Remote

open CodeOutline.Data CodeOutline.Log CodeOutline.Text

def defaultApiUrl : String := "https://api.github.com"

def defaultBasePath : String := "src/main/java"

/-- In seconds. -/
def defaultTimeout : Datum := .int 30

def userAgent : String := "repodoc/0.1"

def jsonMedia : String := "application/vnd.github+json"

/-- The media type of a file's plain text. -/
def rawMedia : String := "application/vnd.github.v3.raw"

/-- The description of a repository that has none. -/
def noDescription : String := "No description available"

/-- Who asks, and where. -/
structure Client where
  token : Option String
  /-- The address that all others start with, without a slash at its end. -/
  apiUrl : String
  timeout : Datum

namespace Client

/-- A client for the service at an address. -/
def make (token : Option String) (apiUrl : String) (timeout : Datum) : Except AddressFault Client :=
  (checkAddress apiUrl).map fun _ => { token, apiUrl := trimEndOf '/' apiUrl, timeout }

/-- The address of a repository, or of a part of it. The parts are escaped but for their slashes,
and empty parts are left out. -/
def repositoryUrl (c : Client) (owner name : String) (parts : List String) : String :=
  let segments := ["repos", Percent.escape [] owner, Percent.escape [] name] ++
    (parts.filter (!·.isEmpty)).map (Percent.escape ['/'])
  c.apiUrl ++ "/" ++ joinWith "/" segments

/-! ## Requests -/

/-- The media type named by a header, without its parameters. -/
def mediaType (header : String) : String :=
  String.ofList ((trimChars (header.toList.takeWhile (· != ';'))).map Char.toLower)

/-- The request for an address that asks for one kind of answer. -/
def request (c : Client) (url accept : String) : Request :=
  { url, accept, userAgent, timeout := c.timeout
    authorization :=
      match c.token with
      | some token => if token.isEmpty then none else some ("Bearer " ++ token)
      | none => none }

/-- The body and the media type of an answer. An answer without a content type is JSON. -/
def received (url : String) : Answer → Except FetchFault (Octets × String)
  | .status code => .error (.status code url)
  | .unreachable reason => .error (.unreachable url reason)
  | .broken how => .error (.unreadable url how)
  | .body octets contentType =>
    if octets.length > bodyLimit then .error (.tooLarge url)
    else .ok (octets, mediaType (contentType.getD "application/json"))

/-- Requests an address. Blanks around it are no part of the request. -/
def get (c : Client) (net : Network) (url accept : String) : Call (Octets × String) :=
  let requested := trim url
  { result := (received url (net.answer requested)).mapError .fetch
    requests := [c.request requested accept]
    events := [] }

/-- Requests a JSON document. -/
def getJson (c : Client) (net : Network) (url : String) : Call Datum := do
  let (octets, _) ← c.get net url jsonMedia
  match Json.read octets with
  | .ok d => return d
  | .error (.malformed reason place) => .failFetch (.notJson url reason place)
  | .error (.encoding fault) => .fail (.encoding fault)
  | .error (.longInteger digits) => .fail (.longInteger digits)

/-! ## Metadata -/

/-- What the service says about a repository. Descriptions and branch names are passed on as they
are, whatever they are. -/
structure Metadata where
  owner : String
  name : String
  commit : String
  description : Datum
  defaultBranch : Datum

/-- The value if it is true, otherwise another. -/
def trueOr (d : Option Datum) (other : String) : Datum :=
  match d with
  | some d => if d.isTrue then d else .text other
  | none => .text other

/-- The commit hash in the first entry of a list of commits. Entries that are no objects are searched
for the name of the field like a list or a text, and only fail where they have it. -/
def commitHash (owner name : String) (commits : Datum) : Except RemoteFault String :=
  let missing : Except RemoteFault String := .error (.fetch (.noCommits owner name))
  match commits with
  | .list (first :: _) =>
    match first with
    | .map entries =>
      match Datum.get? "sha" entries with
      | some hash => .ok hash.display
      | none => missing
    | .list items =>
      if items.any (Datum.sameKey (.text "sha")) then .error (.shape .wrongType) else missing
    | .text s => if occursIn "sha".toList s.toList then .error (.shape .wrongType) else missing
    | _ => .error (.shape .wrongType)
  | _ => missing

/-- The hash of the newest commit. -/
def latestCommit (c : Client) (net : Network) (owner name : String) : Call String := do
  let commits ← c.getJson net (c.repositoryUrl owner name ["commits"] ++ "?per_page=1")
  .ofExcept (commitHash owner name commits)

/-- The metadata of a repository. -/
def metadata (c : Client) (net : Network) (owner name : String) : Call Metadata := do
  .note (info "fetch_metadata" [("owner", .text owner), ("repo", .text name)])
  match ← c.getJson net (c.repositoryUrl owner name []) with
  | .map entries =>
    let commit ← c.latestCommit net owner name
    return {
      owner, name, commit
      description := trueOr (Datum.get? "description" entries) noDescription
      defaultBranch := trueOr (Datum.get? "default_branch" entries) "main" }
  | _ => .failFetch (.unexpectedRepository owner name)

/-! ## Listing -/

/-- An entry of a listing; its path is whatever the service says. -/
structure Entry where
  path : Datum
  kind : String
  deriving Repr

/-- The parts of an address that a path adds; a path that is not true adds none. -/
def pathParts (path : Datum) : Except RemoteFault (List String) :=
  match path with
  | .text s => .ok [s]
  | d => if d.isTrue then .error (.shape .wrongType) else .ok []

/-- The entries of a directory. A path that names a single file answers with that entry alone. -/
def entriesOf : Datum → Except RemoteFault (List Datum)
  | .list items => .ok items
  | .map entries => .ok [.map entries]
  | .text s => if s.isEmpty then .ok [] else .error (.shape .notAnObject)
  | _ => .error (.shape .wrongType)

/-- The contents of a directory; `none` where it cannot be listed and is not the root. -/
def contentsOf (c : Client) (net : Network) (owner name : String) (path : Datum) (isRoot : Bool) :
    Call (Option Datum) :=
  let request : Call (Option Datum) := do
    let parts ← Call.ofExcept (pathParts path)
    return some (← c.getJson net (c.repositoryUrl owner name ("contents" :: parts)))
  request.orElse fun fault =>
    if isRoot then .failFetch fault
    else do
      .note (warning "list_dir_failed" [("owner", .text owner), ("repo", .text name), ("path", path),
        ("error", .text fault.message)])
      return none

/-- The files below a directory, depth first. Directories nested deeper than `depth` must contain each
other. -/
def filesBelow (c : Client) (net : Network) (owner name : String) :
    (depth : Nat) → (path : Datum) → (isRoot : Bool) → Call (List Entry)
  | 0, _, _ => .fail .bottomless
  | depth + 1, path, isRoot => do
    match ← c.contentsOf net owner name path isRoot with
    | none => return []
    | some contents =>
      let entries ← Call.ofExcept (entriesOf contents)
      let found ← entries.mapM fun entry =>
        match entry with
        | .map fields =>
          let below := (Datum.get? "path" fields).getD (.text "")
          match Datum.get? "type" fields with
          | some (.text "dir") => c.filesBelow net owner name depth below false
          | some (.text "file") => pure [⟨below, "file"⟩]
          | _ => pure []
        | _ => .fail (.shape .notAnObject)
      return found.flatten

/-- The files below a base path. -/
def listFiles (c : Client) (net : Network) (owner name basePath : String) : Call (List Entry) := do
  let path := trimOf '/' basePath
  let found ← c.filesBelow net owner name net.depth (.text path) true
  .note (info "files_listed" [("owner", .text owner), ("repo", .text name), ("path", .text path),
    ("count", .int found.length)])
  return found

/-! ## File contents -/

/-- The text of a file in base64, blanks aside. -/
def decodeBase64 (encoded path : String) : Except FetchFault String :=
  match Base64.decode (withoutBlanks encoded).toList with
  | some octets => .ok (Utf8.decodeMending octets)
  | none => .error (.notBase64 path)

/-- The text in a JSON answer: an object's content, decoded if it says that it is in base64. An answer
that is no such object, or no JSON at all, is the text itself. -/
def textOfJson (octets : Octets) (path : String) : Except RemoteFault String :=
  match Json.read octets with
  | .error (.malformed ..) => .ok (Utf8.decodeMending octets)
  | .error (.encoding fault) => .error (.encoding fault)
  | .error (.longInteger digits) => .error (.longInteger digits)
  | .ok (.map fields) =>
    match Datum.get? "content" fields with
    | none => .ok (Utf8.decodeMending octets)
    | some content =>
      let encoding := ((Datum.get? "encoding" fields).map Datum.display).getD ""
      if String.ofList (encoding.toList.map Char.toLower) = "base64" then
        match content with
        | .text encoded => (decodeBase64 encoded path).mapError .fetch
        | _ => .error (.shape .notAnObject)
      else .ok content.display
  | .ok _ => .ok (Utf8.decodeMending octets)

/-- The text of a file. -/
def fileText (c : Client) (net : Network) (owner name path : String) : Call String := do
  let (octets, media) ← c.get net (c.repositoryUrl owner name ["contents", path]) rawMedia
  if media = "application/json" then .ofExcept (textOfJson octets path)
  else return Utf8.decodeMending octets

end Client

end CodeOutline.Remote
