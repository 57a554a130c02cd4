import CodeOutline.Log.Event
import CodeOutline.Remote.Fault

/-!
# The network

A network answers each address in one way. A `Call` is a computation over it, with the requests that
it makes and the events that it reports, in order.
-/

namespace CodeOutline.Remote

open CodeOutline.Data CodeOutline.Log CodeOutline.Text

/-- What a request gets once redirections have been followed. Failures of any other kind, such as that
of a request which cannot be written down at all, are not among the answers. -/
inductive Answer where
  /-- A status other than success. -/
  | status (code : Int)
  | unreachable (reason : String)
  /-- A success whose body cannot be read. -/
  | broken (how : BrokenRead)
  | body (octets : Octets) (contentType : Option String)

/-- What every address answers. -/
structure Network where
  answer : (url : String) → Answer
  /-- More than the number of directories that are nested in each other. -/
  depth : Nat

/-- A request as the network sees it. -/
structure Request where
  url : String
  accept : String
  authorization : Option String
  userAgent : String
  /-- In seconds. -/
  timeout : Datum
  deriving Repr

/-- How a computation ends, and what it asked for and reported on the way. -/
structure Call (α : Type) where
  result : Except RemoteFault α
  requests : List Request
  events : List Event

namespace Call

variable {α β : Type}

/-- A call that ends at once. -/
def fail (fault : RemoteFault) : Call α := ⟨.error fault, [], []⟩

/-- A failure that callers are prepared for. -/
def failFetch (fault : FetchFault) : Call α := fail (.fetch fault)

/-- A call that only reports an event. -/
def note (event : Event) : Call Unit := ⟨.ok (), [], [event]⟩

/-- A call that makes no request. -/
def ofExcept (result : Except RemoteFault α) : Call α := ⟨result, [], []⟩

/-- The second call after the first, if that succeeds. -/
def andThen (c : Call α) (f : α → Call β) : Call β :=
  match c.result with
  | .ok a =>
    let d := f a
    ⟨d.result, c.requests ++ d.requests, c.events ++ d.events⟩
  | .error fault => ⟨.error fault, c.requests, c.events⟩

/-- The call, with another one taken up where it fails in a way that callers are prepared for. -/
def orElse (c : Call α) (f : FetchFault → Call α) : Call α :=
  match c.result with
  | .error (.fetch fault) =>
    let d := f fault
    ⟨d.result, c.requests ++ d.requests, c.events ++ d.events⟩
  | _ => c

instance : Monad Call where
  pure a := ⟨.ok a, [], []⟩
  bind := andThen

end Call

end CodeOutline.Remote
