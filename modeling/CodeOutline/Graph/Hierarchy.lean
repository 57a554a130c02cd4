import CodeOutline.Graph.Store
import CodeOutline.Log.Event

/-!
# The namespace hierarchy

A namespace is made together with the chain of namespaces above it, parents first. Several callers may
do so at once: a caller looks up and adds one namespace at a time, and where another one was faster it
takes what that one has made.

A `Climb` is one call between two operations on the store. `Climb.step` performs the next operation
through an `Access`, which says how the store is looked at and changed; `Access.plain` is a store that
nobody else uses, and `Contention.access` one with rivals.

A chain is as long as its name has segments. No bound on the depth of calls that are nested in each
other, such as a running program has, cuts it short.
-/

namespace CodeOutline.Graph

open CodeOutline.Data CodeOutline.Log CodeOutline.Text

/-- Why no namespace can be had. -/
inductive HierarchyFault where
  | blankRepository
  /-- The name as it was given. -/
  | malformedName (name : String)
  /-- The namespace cannot be added because it is there, and is not there. -/
  | unreadable (name : String)
  | store (fault : StoreFault)
  deriving Repr, DecidableEq

def HierarchyFault.message : HierarchyFault → String
  | blankRepository => "Repository name cannot be null or blank"
  | malformedName name => s!"Malformed namespace: {quoted name}"
  | unreadable name => s!"Namespace '{name}' reported as existing but cannot be read back"
  | store fault => fault.message

/-- How a caller reaches the namespaces of a store. -/
structure Access (σ : Type) where
  find : (repository name : String) → σ → Option Namespace × σ × List Event
  add : (repository name : String) → Option Id → σ → Except StoreFault (Namespace × σ)

/-- A store of one's own. -/
def Access.plain : Access Store where
  find repository name s := (s.namespace? repository name, s, [])
  add repository name parent s := s.addNamespace ⟨repository, name, parent⟩

/-- A call between two operations. `waiting` holds the names below the current one that are still to
be made, nearest first. -/
inductive Climb where
  /-- Goes on by looking the name up. -/
  | lookUp (name : String) (waiting : List String)
  /-- Goes on by adding the name under its parent. -/
  | add (name : String) (parent : Option Id) (waiting : List String)
  /-- Goes on by looking up what somebody else has added. -/
  | reread (name : String) (waiting : List String)
  | done (node : Namespace)
  | failed (fault : HierarchyFault)

namespace Climb

/-- The call with one namespace of its chain at hand. -/
def reached (node : Namespace) : List String → Climb
  | [] => done node
  | name :: waiting => add name (some node.id) waiting

/-- An upper bound on the number of operations to come. -/
def remaining : Climb → Nat
  | lookUp name waiting => 3 * (name.length + 1) + 2 * waiting.length
  | add _ _ waiting => 2 + 2 * waiting.length
  | reread _ waiting => 1 + 2 * waiting.length
  | done _ => 0
  | failed _ => 0

theorem remaining_reached_le (node : Namespace) (waiting : List String) :
    (reached node waiting).remaining ≤ 2 * waiting.length := by
  cases waiting <;> simp [reached, remaining]
  omega

variable {σ : Type}

/-- Performs the next operation. -/
def step (access : Access σ) (repository : String) (c : Climb) (s : σ) : Climb × σ × List Event :=
  match c with
  | lookUp name waiting =>
    let (found, s, events) := access.find repository name s
    match found with
    | some node => (reached node waiting, s, events)
    | none =>
      match parentName? name with
      | some parent => (lookUp parent (name :: waiting), s, events)
      | none => (add name none waiting, s, events)
  | add name parent waiting =>
    match access.add repository name parent s with
    | .ok (node, s) =>
      let event := debug "namespace_created" [("repo", .text repository), ("namespace", .text name),
        ("parent_id", match parent with | some id => .int id | none => .null)]
      (reached node waiting, s, [event])
    | .error (.conflict _ _) =>
      let event := debug "namespace_conflict_reread"
        [("repo", .text repository), ("namespace", .text name)]
      (reread name waiting, s, [event])
    | .error fault => (failed (.store fault), s, [])
  | reread name waiting =>
    let (found, s, events) := access.find repository name s
    match found with
    | some node => (reached node waiting, s, events)
    | none => (failed (.unreadable name), s, events)
  | done node => (done node, s, [])
  | failed fault => (failed fault, s, [])

theorem remaining_step_lt (access : Access σ) (repository : String) (c : Climb) (s : σ)
    (h : 0 < c.remaining) : (c.step access repository s).1.remaining < c.remaining := by
  cases c with
  | lookUp name waiting =>
    change _ < 3 * (name.length + 1) + 2 * waiting.length
    simp only [step]
    split
    · exact Nat.lt_of_le_of_lt (remaining_reached_le _ waiting) (by omega)
    · split
      · have := length_parentName? ‹_›
        simp only [remaining, List.length_cons]
        omega
      · simp only [remaining]
        omega
  | add name parent waiting =>
    change _ < 2 + 2 * waiting.length
    simp only [step]
    split
    · exact Nat.lt_of_le_of_lt (remaining_reached_le _ waiting) (by omega)
    · simp only [remaining]
      omega
    · simp only [remaining]
      omega
  | reread name waiting =>
    change _ < 1 + 2 * waiting.length
    simp only [step]
    split
    · exact Nat.lt_of_le_of_lt (remaining_reached_le _ waiting) (by omega)
    · simp only [remaining]
      omega
  | done node => exact absurd h (by simp [remaining])
  | failed fault => exact absurd h (by simp [remaining])

/-- Performs operations until the call ends. -/
def run (access : Access σ) (repository : String) (c : Climb) (s : σ) :
    Except HierarchyFault Namespace × σ × List Event :=
  match _h : c with
  | done node => (.ok node, s, [])
  | failed fault => (.error fault, s, [])
  | lookUp .. | add .. | reread .. =>
    let next := c.step access repository s
    let (result, t, events) := next.1.run access repository next.2.1
    (result, t, next.2.2 ++ events)
termination_by c.remaining
decreasing_by
  all_goals subst _h; exact remaining_step_lt _ _ _ _ (by simp only [remaining]; omega)

end Climb

/-- The namespace of the given name, made with its chain where it is not there yet. A blank name, or
none, is that of the default namespace. -/
def getOrCreate {σ : Type} (access : Access σ) (repository : String) (name : Option String) (s : σ) :
    Except HierarchyFault Namespace × σ × List Event :=
  if isBlankText repository then (.error .blankRepository, s, [])
  else if isWellFormedName (normalizeName name) then
    (Climb.lookUp (normalizeName name) []).run access repository s
  else (.error (.malformedName (name.getD "")), s, [])

/-! ## Rivals -/

/-- A store under contention. -/
structure Contention where
  store : Store
  /-- Names that a rival makes just when they are looked up for the first time, and that are not seen
  then. -/
  rivals : List String
  /-- Names that are never seen and can never be added. -/
  vanishing : List String

/-- Access to a store for which rivals and lost rows are arranged. -/
def Contention.access : Access Contention where
  find repository name c :=
    if c.vanishing.contains name then (none, c, [])
    else if c.rivals.contains name then
      let (_, store, events) := getOrCreate .plain repository (some name) c.store
      (none, { c with store, rivals := c.rivals.filter (· ≠ name) }, events)
    else (c.store.namespace? repository name, c, [])
  add repository name parent c :=
    if c.vanishing.contains name then .error (.conflict repository name)
    else (c.store.addNamespace ⟨repository, name, parent⟩).map fun (node, store) => (node, { c with store })

end CodeOutline.Graph
