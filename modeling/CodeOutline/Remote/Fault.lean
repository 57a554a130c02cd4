import CodeOutline.Json.Reader

/-!
# Faults of the remote service

A `FetchFault` is an answer that callers are prepared for: the service fails, or says something
unusable. A `RemoteFault` is either that or an answer of a shape that nobody expects, which no caller
mends.
-/

namespace CodeOutline.Remote

open CodeOutline.Json CodeOutline.Number CodeOutline.Text

/-- The greatest body that is read, in megabytes. -/
def bodyLimitMegabytes : Nat := 5

/-- The greatest body that is read, in octets. -/
def bodyLimit : Nat := bodyLimitMegabytes * 1024 * 1024

/-- How reading a body fails. -/
inductive BrokenRead where
  | timeout (text : String)
  | reset (text : String)
  /-- The connection ends too early. -/
  | incomplete (received : Nat)
  deriving Repr, DecidableEq

def BrokenRead.message : BrokenRead → String
  | timeout text => s!"TimeoutError: {text}"
  | reset text => s!"ConnectionResetError: {text}"
  | incomplete received =>
    s!"IncompleteRead: IncompleteRead({received} bytes read, 100 more expected)"

/-- Why nothing usable came back. -/
inductive FetchFault where
  | status (code : Int) (url : String)
  | unreachable (url reason : String)
  | unreadable (url : String) (how : BrokenRead)
  | tooLarge (url : String)
  | notJson (url : String) (reason : Reason) (place : Place)
  /-- The repository's description is no object. -/
  | unexpectedRepository (owner name : String)
  | noCommits (owner name : String)
  | notBase64 (path : String)
  /-- A failure in a service's own words. -/
  | reported (text : String)
  deriving Repr, DecidableEq

def FetchFault.message : FetchFault → String
  | status code url => s!"GitHub API returned HTTP {code} for '{url}'"
  | unreachable url reason => s!"Failed to reach '{url}': {reason}"
  | unreadable url how => s!"Failed to read '{url}': {how.message}"
  | tooLarge url => s!"Response body exceeds {bodyLimitMegabytes} MB limit for '{url}'."
  | notJson url reason place => s!"Invalid JSON from '{url}': {malformedMessage reason place}"
  | unexpectedRepository owner name => s!"Unexpected repository payload for {owner}/{name}"
  | noCommits owner name => s!"Unable to fetch commits for repository: {owner}/{name}"
  | notBase64 path => s!"Invalid base64 content for '{path}'"
  | reported text => text

/-- A value that is not of the shape that its place asks for. -/
inductive ShapeFault where
  /-- It has none of the fields or text operations that are used. -/
  | notAnObject
  /-- It cannot be searched, indexed or put into an address. -/
  | wrongType
  deriving Repr, DecidableEq

/-- Everything that a call can end with beside a value. -/
inductive RemoteFault where
  | fetch (fault : FetchFault)
  | encoding (fault : EncodingFault)
  | longInteger (digits : Nat)
  | shape (fault : ShapeFault)
  /-- Directories contain each other. -/
  | bottomless
  deriving Repr, DecidableEq

def RemoteFault.message : RemoteFault → String
  | fetch fault => fault.message
  | encoding fault => fault.message
  | longInteger digits => longIntegerMessage (some digits)
  | shape .notAnObject => "an answer has no such field or operation"
  | shape .wrongType => "an answer is of another type"
  | bottomless => "maximum recursion depth exceeded"

end CodeOutline.Remote
