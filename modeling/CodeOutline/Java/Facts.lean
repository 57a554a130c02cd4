import CodeOutline.Graph.Fact
import CodeOutline.Java.Comment
import CodeOutline.Java.Grammar

/-!
# The facts of a source file

`typesOf` reads a source text and reports the types that it declares, outer before inner, each with
its annotations, its leading comment, and its own methods and fields.
-/

namespace CodeOutline

namespace Java

/-- Source text that is not Java. -/
structure SyntaxError where
  /-- The line, counted from one, of the first token that cannot stand where it stands. -/
  line : Nat
  deriving Repr, DecidableEq

def SyntaxError.message (e : SyntaxError) : String :=
  s!"Unable to parse the provided Java content (line {e.line})"

/-- The depth of reading that is always enough: between two tokens a reader goes through a bounded
number of rules. -/
def readingDepth (tokens : List Token) : Nat :=
  1000 * (tokens.length + 1)

/-- The syntax tree of a source text. -/
def parse (source : String) : Except SyntaxError Node :=
  let tokens := tokens source
  match Rule.run Grammar.rules (readingDepth tokens) (Grammar.rules .program) { tokens } with
  | .ok c => .ok (.phrase .program "" c.endRow c.made.reverse)
  | .error reach => .error ⟨((tokens[reach]?).map (·.row + 1)).getD 1⟩

/-! ## Declarations in the tree -/

/-- Declares a type. -/
def Node.isTypeDecl : Node → Bool
  | .comment _ => false
  | .phrase kind _ _ _ =>
    [.classDecl, .interfaceDecl, .enumDecl, .recordDecl, .annotationDecl].contains kind

/-- The names of the annotations among the node's own modifiers. -/
def Node.annotations (node : Node) : List String :=
  (node.children.filter (·.isKind .modifiers)).flatMap fun modifiers =>
    (modifiers.children.filter (·.isKind .annotationUse)).map (·.declaredName)

/-- The comment that stands directly before a node, given the siblings before the node, nearest
first. A comment on the row where the sibling before it ends belongs to that sibling. -/
def leadingComment : List Node → Option String
  | .comment c :: before =>
    match before with
    | previous :: _ => if previous.endRow = c.row then none else some (commentText c.text)
    | [] => some (commentText c.text)
  | _ => none

/-- The members that a declaration declares by itself, given the siblings before it. -/
def Node.declaredMembers (before : List Node) (node : Node) : List MemberFact :=
  let member (kind : MemberKind) (name : String) : MemberFact :=
    ⟨name, kind, node.annotations, leadingComment before⟩
  match node with
  | .comment _ => []
  | .phrase kind _ _ children =>
    match kind with
    | .method | .annotationElement => [member .method node.declaredName]
    | .field | .constant =>
      (children.filter (·.isKind .declarator)).map fun d => member .field d.declaredName
    | .enumConstant => [member .field node.declaredName]
    | _ => []

mutual

/-- The members that one child of a type's body declares, given the siblings before it. The members
of an enum that follow its constants are in a node of their own. -/
def Node.members (before : List Node) : Node → List MemberFact
  | .comment _ => []
  | .phrase kind text endRow children =>
    if kind = .enumMembers then Node.membersOfList [] children
    else (Node.phrase kind text endRow children).declaredMembers before

/-- The members that the nodes of a list declare, given the siblings before them. -/
def Node.membersOfList (before : List Node) : List Node → List MemberFact
  | [] => []
  | node :: rest => node.members before ++ Node.membersOfList (node :: before) rest

end

/-- What a type declaration says, given the siblings before it. -/
def typeFact (before : List Node) (node : Node) : TypeFact :=
  { name := node.declaredName
    annotations := node.annotations
    comment := leadingComment before
    members := ((node.child? .body).map fun body => Node.membersOfList [] body.children).getD [] }

/-! ## The walk

The tree is walked with a stack of nodes, the next one on top, since a source may be nested more deeply
than a recursion should be. A node on the stack has the siblings before it at its side. -/

/-- A node and the siblings before it, nearest first. -/
structure Place where
  before : List Node
  node : Node

/-- The nodes of a list with the siblings before them. -/
def placesOf (before : List Node) : List Node → List Place
  | [] => []
  | node :: rest => ⟨before, node⟩ :: placesOf (node :: before) rest

mutual

/-- The number of nodes of a tree. -/
def Node.size : Node → Nat
  | .comment _ => 1
  | .phrase _ _ _ children => Node.sizeOfList children + 1

/-- The number of nodes of some trees. -/
def Node.sizeOfList : List Node → Nat
  | [] => 0
  | node :: rest => node.size + Node.sizeOfList rest

end

theorem Node.sizeOfList_children (node : Node) : Node.sizeOfList node.children < node.size := by
  cases node with
  | comment => exact Nat.lt_succ_self 0
  | phrase => exact Nat.lt_succ_self _

theorem Node.sizeOfList_append (l m : List Node) :
    Node.sizeOfList (l ++ m) = Node.sizeOfList l + Node.sizeOfList m := by
  induction l with
  | nil => simp [Node.sizeOfList]
  | cons node rest ih => simp only [List.cons_append, Node.sizeOfList, ih, Nat.add_assoc]

@[simp] theorem map_node_placesOf (before nodes : List Node) :
    (placesOf before nodes).map (·.node) = nodes := by
  induction nodes generalizing before with
  | nil => rfl
  | cons node rest ih => rw [placesOf, List.map_cons, ih]

/-- Goes on with the walk: a type that is met is reported, and then what is in the node comes next. -/
def collectTypes (found : List TypeFact) : (stack : List Place) → List TypeFact
  | [] => found
  | ⟨before, node⟩ :: rest =>
    collectTypes (if node.isTypeDecl then found ++ [typeFact before node] else found)
      (placesOf [] node.children ++ rest)
termination_by stack => Node.sizeOfList (stack.map (·.node))
decreasing_by
  rw [List.map_append, map_node_placesOf, Node.sizeOfList_append, List.map_cons, Node.sizeOfList]
  exact Nat.add_lt_add_right (Node.sizeOfList_children _) _

/-- The types declared below a node, in the order in which they begin. -/
def Node.declaredTypes (root : Node) : List TypeFact :=
  collectTypes [] (placesOf [] root.children)

/-- The types declared in a source text, in the order in which they begin. -/
def typesOf (source : String) : Except SyntaxError (List TypeFact) :=
  (parse source).map Node.declaredTypes

/-- Whether the file at a path is Java source, by its name alone. -/
def handles (path : String) : Bool :=
  ".java".toList.isSuffixOf (path.toList.map Char.toLower)

end Java

end CodeOutline
