import CodeOutline.Yaml.Node
import CodeOutline.Yaml.Scalar

/-!
# The value of a document

A document's value is built level by level: the root, then what stands in it, then what stands in
that, so that of two faults the one nearer to the root is reported. A mapping may take over the
entries of others under a merge key; its own entries come after them and win.
-/

namespace CodeOutline.Yaml

open CodeOutline.Data

namespace Node

def kind : Node → Kind
  | scalar kind _ | sequence kind _ | mapping kind _ => kind

def withKind (kind : Kind) : Node → Node
  | scalar _ text => scalar kind text
  | sequence _ items => sequence kind items
  | mapping _ entries => mapping kind entries

end Node

/-- A value of the kind holds other values. -/
def Kind.isCollection : Kind → Bool
  | .sequence | .mapping | .set | .entries => true
  | _ => false

/-- The nodes of a document by number. -/
abbrev Nodes := Array Node

namespace Nodes

/-- The kind of the node with that number. -/
def kind (nodes : Nodes) (id : NodeId) : Kind :=
  (nodes[id]?.map Node.kind).getD .other

/-- The text of a scalar, or of the entry that stands for a whole mapping. -/
def text? (nodes : Nodes) : Nat → NodeId → Option String
  | 0, _ => none
  | fuel + 1, id =>
    match nodes[id]? with
    | some (.scalar _ text) => some text
    | some (.mapping _ entries) =>
      (entries.find? fun e => nodes.kind e.1 = .standIn).bind fun e => nodes.text? fuel e.2
    | _ => none

/-- The entries of a mapping; any other node has none. -/
def entries (nodes : Nodes) (id : NodeId) : List (NodeId × NodeId) :=
  match nodes[id]? with
  | some (.mapping _ entries) => entries
  | _ => []

/-! ## Merging -/

mutual

/-- The nodes with the entries under a mapping's merge keys put in front of its own. -/
def merged : Nat → NodeId → Nodes → Except Fault Nodes
  | 0, _, nodes => .ok nodes
  | fuel + 1, id, nodes =>
    match nodes[id]? with
    | some (.mapping kind entries) => do
      let (merges, own) := entries.partition fun e => nodes.kind e.1 = .merge
      let nodes := own.foldl (fun nodes e =>
        if nodes.kind e.1 = .standIn then nodes.modify e.1 (.withKind .text) else nodes) nodes
      let nodes := nodes.setIfInBounds id (.mapping kind own)
      let (nodes, taken) ← merges.foldlM (fun (nodes, taken) e => do
        let (nodes, more) ← entriesOf fuel e.2 nodes
        return (nodes, taken ++ more)) (nodes, [])
      return nodes.setIfInBounds id (.mapping kind (taken ++ own))
    | _ => .error .shape

/-- The entries that the value of a merge key stands for: those of a mapping, or of several, the
last of which come first. -/
def entriesOf : Nat → NodeId → Nodes → Except Fault (Nodes × List (NodeId × NodeId))
  | 0, _, nodes => .ok (nodes, [])
  | fuel + 1, id, nodes =>
    match nodes[id]? with
    | some (.mapping ..) => do
      let nodes ← merged fuel id nodes
      return (nodes, nodes.entries id)
    | some (.sequence _ items) => do
      items.foldlM (fun (nodes, taken) item => do
        let nodes ← merged fuel item nodes
        return (nodes, nodes.entries item ++ taken)) (nodes, [])
    | _ => .error .shape

end

end Nodes

/-! ## Levels -/

/-- A value on the way. -/
structure Building where
  nodes : Nodes
  /-- The values of the scalars that have been met. -/
  scalars : Array (Option Datum)
  /-- The collections that have been met, in that order. -/
  collections : Array NodeId := #[]

namespace Building

/-- Meets a node: a scalar gets its value, a collection has to wait. -/
def meet (b : Building) (id : NodeId) : Except Fault Building :=
  let kind := b.nodes.kind id
  if kind.isCollection then
    .ok (if b.collections.contains id then b else { b with collections := b.collections.push id })
  else if (b.scalars[id]?.join).isSome then .ok b
  else
    match b.nodes.text? (b.nodes.size + 1) id with
    | none => .error .shape
    | some text => do
      let v ← Scalar.value kind text
      return { b with scalars := b.scalars.setIfInBounds id (some v) }

/-- Meets the key and the value of an entry. A collection is no key. -/
def meetEntry (b : Building) (e : NodeId × NodeId) : Except Fault Building := do
  let b ← b.meet e.1
  if (b.nodes.kind e.1).isCollection then throw .shape
  b.meet e.2

/-- Meets the key and the value of a mapping with one entry. -/
def meetSingle (b : Building) (id : NodeId) : Except Fault Building :=
  match b.nodes[id]? with
  | some (.mapping _ [e]) => do (← b.meet e.1).meet e.2
  | _ => .error .shape

/-- Meets what stands in a collection. -/
def openCollection (b : Building) (id : NodeId) : Except Fault Building := do
  match b.nodes.kind id, b.nodes[id]? with
  | .sequence, some (.sequence _ items) => items.foldlM meet b
  | .entries, some (.sequence _ items) => items.foldlM meetSingle b
  | .mapping, some (.mapping ..) | .set, some (.mapping ..) =>
    let nodes ← Nodes.merged (2 * b.nodes.size + 2) id b.nodes
    (nodes.entries id).foldlM meetEntry { b with nodes }
  | _, _ => throw .shape

/-- Opens the collections that wait, from one of them on. -/
def openAll : Nat → Nat → Building → Except Fault Building
  | 0, _, b => .ok b
  | fuel + 1, position, b =>
    match b.collections[position]? with
    | none => .ok b
    | some id => do openAll fuel (position + 1) (← b.openCollection id)

/-- The value of a node, given the nodes that it stands in. -/
def value (b : Building) : Nat → List NodeId → NodeId → Datum
  | 0, _, _ => .null
  | fuel + 1, around, id =>
    let kind := b.nodes.kind id
    if !kind.isCollection then (b.scalars[id]?.join).getD .null
    else if around.contains id then .enclosing (kind = .mapping)
    else
      let inside := b.value fuel (id :: around)
      match kind, b.nodes[id]? with
      | .sequence, some (.sequence _ items) => .list (items.map inside)
      | .entries, some (.sequence _ items) =>
        .list (items.flatMap fun item =>
          (b.nodes.entries item).map fun e => .pair (inside e.1) (inside e.2))
      | .set, some (.mapping _ entries) =>
        .set ((entries.foldl (fun done e => Datum.put (inside e.1) .null done) []).map (·.1))
      | _, some (.mapping _ entries) =>
        .map (entries.foldl (fun done e => Datum.put (inside e.1) (inside e.2) done) [])
      | _, _ => .null

end Building

/-- The value of a document. -/
def Document.value (d : Document) : Except Fault Datum := do
  let start : Building := { nodes := d.nodes, scalars := Array.replicate d.nodes.size none }
  let b ← Building.openAll (d.nodes.size + 1) 0 (← start.meet d.root)
  return b.value (d.nodes.size + 1) [] d.root

/-- The value that a text writes; a text without a node writes none. -/
def read (cs : List Char) : Except Fault Datum :=
  match Document.read cs with
  | .error f => .error (.read f)
  | .ok none => .ok .null
  | .ok (some d) => d.value

end CodeOutline.Yaml
