import CodeOutline.Yaml.Kind
import CodeOutline.Yaml.Token

/-!
# The nodes of a document

A document is a graph of nodes: scalars, sequences and mappings. A node that an anchor names can
stand in several places, also inside itself; so nodes are numbered, and collections hold numbers.
-/

namespace CodeOutline.Yaml

/-- The number of a node. -/
abbrev NodeId := Nat

/-- A value as it is written, with the kind that its tag or its form gives it. Children are
referred to by number. -/
inductive Node where
  | scalar (kind : Kind) (text : String)
  | sequence (kind : Kind) (items : List NodeId)
  | mapping (kind : Kind) (entries : List (NodeId × NodeId))
  deriving Repr, DecidableEq

/-- The nodes of a text, and which of them is the outermost. -/
structure Document where
  nodes : Array Node
  root : NodeId
  deriving Repr

/-- What is known between two tokens. -/
structure Reading where
  tokens : List Token
  nodes : Array Node := #[]
  /-- The nodes that anchors name. -/
  anchors : List (String × NodeId) := []
  /-- What the handles of tags stand for. -/
  handles : List (String × String) := []

/-- A part of a document, read from tokens. -/
abbrev Read (α : Type) := StateT Reading (Except ReadFault) α

/-- What stands in front of a node. -/
structure Properties where
  anchor : Option String := none
  tag : Option String := none

namespace Properties

/-- The kind of a node whose kind without a tag is given. -/
def kind (p : Properties) (untagged : Kind) : Kind :=
  match p.tag with
  | none | some "!" => untagged
  | some tag => .ofTag tag

/-- The kind of a scalar. A text in quotes without a tag is a text, whatever is written. -/
def scalarKind (p : Properties) (text : String) (plain : Bool) : Kind :=
  p.kind (if plain || p.tag = some "!" then .ofPlain text.toList else .text)

end Properties

namespace Read

/-- The next token. -/
def next? : Read (Option Token) := do return (← get).tokens.head?

/-- Moves over the next token. -/
def skip : Read Unit := modify fun r => { r with tokens := r.tokens.tail }

/-- The next token does not fit. -/
def unexpected {α : Type} : Read α := do
  match ← next? with
  | some (.fault f) => throw f
  | _ => throw .malformed

/-- The next token is one of these. -/
def sees (ts : List Token) : Read Bool := do
  return (← next?).any ts.contains

/-- Moves over the next token if it is the given one. -/
def accept (t : Token) : Read Bool := do
  if ← sees [t] then
    skip
    return true
  else return false

/-- Moves over the next token, which has to be the given one. -/
def expect (t : Token) : Read Unit := do
  if !(← accept t) then unexpected

/-! ## New nodes -/

/-- A new node. -/
def add (n : Node) : Read NodeId := do
  let r ← get
  set { r with nodes := r.nodes.push n }
  return r.nodes.size

/-- The new node under the name of its anchor. Each anchor stands once. -/
def named (p : Properties) (n : Node) : Read NodeId := do
  let id ← add n
  match p.anchor with
  | none => return id
  | some name =>
    if (← get).anchors.any (·.1 = name) then throw .malformed
    modify fun r => { r with anchors := (name, id) :: r.anchors }
    return id

/-- Gives a node its content. -/
def fill (id : NodeId) (n : Node) : Read Unit :=
  modify fun r => { r with nodes := r.nodes.setIfInBounds id n }

/-- A scalar without text. -/
def empty : Read NodeId := add (.scalar .null "")

/-! ## Properties -/

/-- The whole tag. -/
def wholeTag (t : TagText) : Read String := do
  match t.handle with
  | none => return t.suffix
  | some handle =>
    match (← get).handles.lookup handle with
    | some beginning => return beginning ++ t.suffix
    | none => throw .malformed

/-- The tag that comes next, if one does. -/
def tag? : Read (Option TagText) := do
  match ← next? with
  | some (.tag t) =>
    skip
    return some t
  | _ => return none

/-- The anchor that comes next, if one does. -/
def anchor? : Read (Option String) := do
  match ← next? with
  | some (.anchor name) =>
    skip
    return some name
  | _ => return none

/-- The properties that come next. They stand in any order, each at most once. -/
def properties : Read Properties := do
  let before ← anchor?
  let tag ← tag?
  let anchor ← if before.isNone && tag.isSome then anchor? else pure before
  match tag with
  | none => return { anchor }
  | some t => return { anchor, tag := some (← wholeTag t) }

/-! ## Collections -/

mutual

/-- The node that comes next. Block collections are nodes where `block` holds; where `indentless`
holds, so is a sequence at the column of the mapping around it. -/
def node (block indentless : Bool) : Nat → Read NodeId
  | 0 => unexpected
  | fuel + 1 => do
    if let some (.reference name) ← next? then
      match (← get).anchors.lookup name with
      | some id =>
        skip
        return id
      | none => throw .malformed
    let p ← properties
    match ← next? with
    | some .entry =>
      if indentless then sequence p (indentlessItems fuel) else bare p
    | some (.scalar text plain) =>
      skip
      named p (.scalar (p.scalarKind text plain) text)
    | some .openBracket => skip; sequence p (flowItems true fuel)
    | some .openBrace => skip; mapping p (flowEntries true fuel)
    | some .blockSequence => if block then skip; sequence p (blockItems fuel) else bare p
    | some .blockMapping => if block then skip; mapping p (blockEntries fuel) else bare p
    | _ => bare p
where
  /-- A node of which nothing but properties is written. -/
  bare (p : Properties) : Read NodeId :=
    if p.anchor.isSome || p.tag.isSome then named p (.scalar (p.scalarKind "" true) "")
    else unexpected
  sequence (p : Properties) (items : Read (List NodeId)) : Read NodeId := do
    let kind := p.kind .sequence
    let id ← named p (.sequence kind [])
    fill id (.sequence kind (← items))
    return id
  mapping (p : Properties) (entries : Read (List (NodeId × NodeId))) : Read NodeId := do
    let kind := p.kind .mapping
    let id ← named p (.mapping kind [])
    fill id (.mapping kind (← entries))
    return id

/-- The rest of a block sequence. -/
def blockItems : Nat → Read (List NodeId)
  | 0 => unexpected
  | fuel + 1 => do
    if ← accept .entry then
      let item ← if ← sees [.entry, .blockEnd] then empty else node true false fuel
      return item :: (← blockItems fuel)
    else
      expect .blockEnd
      return []

/-- The rest of a sequence at the column of the mapping around it. -/
def indentlessItems : Nat → Read (List NodeId)
  | 0 => unexpected
  | fuel + 1 => do
    if ← accept .entry then
      let item ← if ← sees [.entry, .key, .value, .blockEnd] then empty else node true false fuel
      return item :: (← indentlessItems fuel)
    else return []

/-- The rest of a block mapping. -/
def blockEntries : Nat → Read (List (NodeId × NodeId))
  | 0 => unexpected
  | fuel + 1 => do
    let part : Read NodeId := do
      if ← sees [.key, .value, .blockEnd] then empty else node true true fuel
    if ← accept .key then
      let k ← part
      let v ← if ← accept .value then part else empty
      return (k, v) :: (← blockEntries fuel)
    else
      expect .blockEnd
      return []

/-- The rest of a sequence in brackets. A key inside it opens a mapping of one entry. -/
def flowItems (first : Bool) : Nat → Read (List NodeId)
  | 0 => unexpected
  | fuel + 1 => do
    if ← accept .closeBracket then return []
    if !first then expect .comma
    if ← accept .closeBracket then return []
    let item ←
      if ← accept .key then do
        let id ← add (.mapping .mapping [])
        let k ← if ← sees [.value, .comma, .closeBracket] then empty else node false false fuel
        let v ←
          if ← accept .value then
            if ← sees [.comma, .closeBracket] then empty else node false false fuel
          else empty
        fill id (.mapping .mapping [(k, v)])
        pure id
      else node false false fuel
    return item :: (← flowItems false fuel)

/-- The rest of a mapping in braces. -/
def flowEntries (first : Bool) : Nat → Read (List (NodeId × NodeId))
  | 0 => unexpected
  | fuel + 1 => do
    if ← accept .closeBrace then return []
    if !first then expect .comma
    if ← accept .closeBrace then return []
    let entry ←
      if ← accept .key then do
        let k ← if ← sees [.value, .comma, .closeBrace] then empty else node false false fuel
        let v ←
          if ← accept .value then
            if ← sees [.comma, .closeBrace] then empty else node false false fuel
          else empty
        pure (k, v)
      else do
        let k ← node false false fuel
        pure (k, ← empty)
    return entry :: (← flowEntries false fuel)

end

/-! ## Documents -/

/-- What handles stand for where no directive says it. -/
def standardHandles : List (String × String) := [("!", "!"), ("!!", Kind.tagSpace)]

/-- The directives in front of a document. A version stands once and is one of the first; a handle
is given its meaning once. -/
def directives (versioned : Bool) : Nat → Read Unit
  | 0 => unexpected
  | fuel + 1 => do
    match ← next? with
    | some (.directive d) =>
      skip
      match d with
      | .version major _ =>
        if versioned || major ≠ 1 then throw .malformed
        directives true fuel
      | .handle name beginning =>
        if (← get).handles.any (·.1 = name) then throw .malformed
        modify fun r => { r with handles := (name, beginning) :: r.handles }
        directives versioned fuel
      | .other => directives versioned fuel
    | _ => modify fun r => { r with handles := r.handles ++ standardHandles }

/-- The node of the document that comes next. -/
def content (fuel : Nat) : Read NodeId := do
  match ← next? with
  | some (.directive _) | some .documentStart =>
    directives false fuel
    expect .documentStart
    match ← next? with
    | none | some (.directive _) | some .documentStart | some .documentEnd => empty
    | _ => node true false fuel
  | _ =>
    modify fun r => { r with handles := standardHandles }
    node true false fuel

/-- Moves over the ends of documents. -/
def documentEnds : Nat → Read Unit
  | 0 => return
  | fuel + 1 => do if ← accept .documentEnd then documentEnds fuel

/-- The only document of a text, if it has one. -/
def document? (fuel : Nat) : Read (Option NodeId) := do
  match ← next? with
  | none => return none
  | some _ =>
    let root ← content fuel
    documentEnds fuel
    match ← next? with
    | none => return some root
    | some _ => unexpected

end Read

/-- The document of a text; `none` where the text holds no node. -/
def Document.read (cs : List Char) : Except ReadFault (Option Document) := do
  let ts := tokens cs
  let (root, r) ← (Read.document? (4 * ts.length + 8)).run { tokens := ts }
  return root.map fun root => { nodes := r.nodes, root }

end CodeOutline.Yaml
