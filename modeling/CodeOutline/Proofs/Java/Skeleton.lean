import CodeOutline.Proofs.Java.DocComment
import CodeOutline.Proofs.Java.Walk

/-!
# Skeletons of classes

A class without anything but its name, its members, and their annotations and comments: how it is
written, one declaration a line, which tree the grammar gives this text, and what the outline says of
it. The facts of the tree are those of the skeleton (`declaredTypes_treeOf`), to any depth: each member is
found at its own class and each comment at the declaration below it, since what stands before the
comment ends on an earlier row.
-/

namespace CodeOutline.Java

open CodeOutline.Text

/-- A word of a source text. -/
structure Word where
  text : String
  spelled : ∃ c cs, text.toList = c :: cs ∧ isWordStart c ∧ ∀ d ∈ cs, isWordPart d

/-- Words with dots between them. -/
structure DottedName where
  first : Word
  rest : List Word

def DottedName.chars (name : DottedName) : List Char :=
  name.first.text.toList ++ name.rest.flatMap fun word => '.' :: word.text.toList

def DottedName.text (name : DottedName) : String :=
  String.ofList name.chars

/-- What every declaration has. -/
structure Heading where
  annotations : List DottedName
  /-- The lines of the comment; without lines there is no comment. -/
  comment : List CommentLine
  name : Word

/-- A field, a method, or a class with its members. -/
inductive Skeleton where
  | field (head : Heading)
  | method (head : Heading)
  | type (head : Heading) (body : List Skeleton)

/-! ## The text -/

/-- The comment with the line feed after it. -/
def Heading.commentChars (h : Heading) : List Char :=
  if h.comment.isEmpty then [] else docComment h.comment ++ ['\n']

def Heading.chars (h : Heading) : List Char :=
  h.commentChars ++ h.annotations.flatMap fun name => '@' :: (name.chars ++ [' '])

mutual

def Skeleton.chars : Skeleton → List Char
  | .field h => h.chars ++ ("int ".toList ++ (h.name.text.toList ++ ";\n".toList))
  | .method h => h.chars ++ ("void ".toList ++ (h.name.text.toList ++ "() \x7b\x7d\n".toList))
  | .type h body => h.chars ++ ("class ".toList ++ (h.name.text.toList ++ (" \x7b\n".toList ++
      (Skeleton.charsOfList body ++ "\x7d\n".toList))))

def Skeleton.charsOfList : List Skeleton → List Char
  | [] => []
  | d :: ds => d.chars ++ Skeleton.charsOfList ds

end

/-! ## The facts -/

def Heading.annotationNames (h : Heading) : List String :=
  h.annotations.map (·.text)

/-- What the comment says. -/
def Heading.doc (h : Heading) : Option String :=
  if h.comment.isEmpty then none else some (joinWith "\n" (h.comment.map (·.text)))

/-- The member that a declaration is of the class around it. -/
def Skeleton.member : Skeleton → List MemberFact
  | .field h => [⟨h.name.text, .field, h.annotationNames, h.doc⟩]
  | .method h => [⟨h.name.text, .method, h.annotationNames, h.doc⟩]
  | .type .. => []

mutual

/-- The classes, outer before inner. -/
def Skeleton.facts : Skeleton → List TypeFact
  | .field _ | .method _ => []
  | .type h body =>
    ⟨h.name.text, h.annotationNames, h.doc, body.flatMap Skeleton.member⟩ ::
      Skeleton.factsOfList body

def Skeleton.factsOfList : List Skeleton → List TypeFact
  | [] => []
  | d :: ds => d.facts ++ Skeleton.factsOfList ds

end

/-! ## The tree -/

/-- The number of lines of the comment. -/
def Heading.rows (h : Heading) : Nat :=
  if h.comment.isEmpty then 0 else h.comment.length + 2

mutual

/-- The number of lines of a declaration. -/
def Skeleton.rows : Skeleton → Nat
  | .field h | .method h => h.rows + 1
  | .type h body => h.rows + 1 + Skeleton.rowsOfList body + 1

def Skeleton.rowsOfList : List Skeleton → Nat
  | [] => 0
  | d :: ds => d.rows + Skeleton.rowsOfList ds

end

/-- The comment that begins on a row. -/
def Heading.comments (h : Heading) (row : Nat) : List Comment :=
  if h.comment.isEmpty then []
  else [⟨String.ofList (docComment h.comment), row, row + h.comment.length + 1⟩]

def nameNode (row : Nat) (text : String) : Node :=
  .phrase .name text row []

def useNode (row : Nat) (name : DottedName) : Node :=
  .phrase .annotationUse "" row [nameNode row name.text]

/-- The annotations of a declaration, on the row of its keyword. -/
def Heading.modifiers (h : Heading) (row : Nat) : List Node :=
  if h.annotations.isEmpty then []
  else [.phrase .modifiers "" row (h.annotations.map (useNode row))]

def Skeleton.head : Skeleton → Heading
  | .field h | .method h | .type h _ => h

mutual

/-- The node of a declaration that begins on a row, with its comment. -/
def Skeleton.node (row : Nat) : Skeleton → Node
  | .field h =>
    let r := row + h.rows
    .phrase .field "" r (h.modifiers r ++ [.phrase .declarator "" r [nameNode r h.name.text]])
  | .method h =>
    let r := row + h.rows
    .phrase .method "" r (h.modifiers r ++
      [nameNode r h.name.text, .phrase .other "" r [], .phrase .other "" r []])
  | .type h body =>
    let r := row + h.rows
    let last := r + 1 + Skeleton.rowsOfList body
    .phrase .classDecl "" last (h.modifiers r ++
      [nameNode r h.name.text, .phrase .body "" last (Skeleton.nodesOfList (r + 1) body)])

/-- The nodes of declarations, each behind its comment. -/
def Skeleton.nodesOfList (row : Nat) : List Skeleton → List Node
  | [] => []
  | d :: ds => (d.head.comments row).map Node.comment ++
      d.node row :: Skeleton.nodesOfList (row + d.rows) ds

end

theorem Skeleton.endRow_node (row : Nat) (d : Skeleton) : (d.node row).endRow + 1 = row + d.rows := by
  cases d with
  | field h | method h => rfl
  | type h body =>
    simp only [node, Node.endRow, rows]
    omega

/-! ## The facts of the tree -/

/-- What stands before a row: nothing, or a declaration that ends on an earlier one. -/
def ClearBefore (row : Nat) (before : List Node) : Prop :=
  ∀ n, before.head? = some n → (∀ k, n ≠ .comment k) ∧ n.endRow < row

theorem leadingComment_of_clearBefore {row : Nat} {before : List Node} (h : ClearBefore row before)
    (head : Heading) :
    leadingComment ((head.comments row).map Node.comment ++ before) = head.doc := by
  unfold Heading.comments Heading.doc
  split
  · next none =>
    cases before with
    | nil => rfl
    | cons n before =>
      obtain ⟨uncommented, -⟩ := h n rfl
      cases n with
      | comment k => exact absurd rfl (uncommented k)
      | phrase => rfl
  · rw [← commentText_docComment head.comment]
    cases before with
    | nil => rfl
    | cons n before =>
      obtain ⟨-, earlier⟩ := h n rfl
      exact if_neg (Nat.ne_of_lt earlier)

theorem clearBefore_node (row : Nat) (d : Skeleton) (before : List Node) :
    ClearBefore (row + d.rows) (d.node row :: before) := by
  rintro n ⟨⟩
  refine ⟨fun k same => ?_, ?_⟩
  · cases d <;> cases same
  · rw [← d.endRow_node row]
    exact Nat.lt_succ_self _

section Nodes

variable {row r last : Nat} {kind : Kind} {more : List Node} (h : Heading)

theorem reverse_comments : ((h.comments row).map Node.comment).reverse =
    (h.comments row).map Node.comment := by
  unfold Heading.comments
  split <;> rfl

/-- Nothing is reported of a comment. -/
theorem preorderOfList_comments {β : Type} {enter : Node → Bool} {report : Place → List β}
    (silent : ∀ before k, report ⟨before, .comment k⟩ = []) (before : List Node) :
    Node.preorderOfList enter report before ((h.comments row).map Node.comment) = [] := by
  unfold Heading.comments
  split
  · rfl
  · rw [List.map_singleton, Node.preorderOfList, Node.preorder, silent]
    rfl

theorem not_isKind_of_mem_modifiers {n : Node} (hn : n ∈ h.modifiers r) (other : kind ≠ .modifiers) :
    ¬ n.isKind kind := by
  unfold Heading.modifiers at hn
  split at hn
  · cases hn
  · rw [List.mem_singleton.1 hn]
    exact fun same => other (of_decide_eq_true same).symm

theorem annotations_phrase (other : ∀ n ∈ more, ¬ n.isKind .modifiers) :
    (Node.phrase kind "" last (h.modifiers r ++ more)).annotations = h.annotationNames := by
  rw [Node.annotations, Node.children, List.filter_append, List.filter_eq_nil_iff.2 other,
    List.append_nil, Heading.modifiers, Heading.annotationNames]
  split
  · next none => rw [List.isEmpty_iff.1 none]; rfl
  · have uses : (h.annotations.map (useNode r)).filter (·.isKind .annotationUse) =
        h.annotations.map (useNode r) := by
      refine List.filter_eq_self.2 fun n hn => ?_
      obtain ⟨name, -, rfl⟩ := List.mem_map.1 hn
      rfl
    change List.flatMap _ [Node.phrase .modifiers "" r _] = _
    rw [List.flatMap_singleton, Node.children, uses, List.map_map]
    rfl

theorem declaredName_phrase (name : String) :
    (Node.phrase kind "" last (h.modifiers r ++ nameNode r name :: more)).declaredName = name :=
  declaredName_of_split (fun _ hn => not_isKind_of_mem_modifiers h hn (by decide)) name

/-- There is no type in annotations. -/
theorem preorderOfList_modifiers (before : List Node) :
    Node.preorderOfList (fun _ => true) ownType before (h.modifiers r) = [] := by
  unfold Heading.modifiers
  split
  · rfl
  · have uses (before : List Node) (names : List DottedName) :
        Node.preorderOfList (fun _ => true) ownType before (names.map (useNode r)) = [] := by
      induction names generalizing before with
      | nil => rfl
      | cons name names ih => exact ih _
    rw [Node.preorderOfList, Node.preorder, uses]
    rfl

/-- The traversal of a declaration goes on behind its annotations. -/
theorem preorder_phrase (before : List Node) :
    (Node.phrase kind "" last (h.modifiers r ++ more)).preorder (fun _ => true) ownType before =
      ownType ⟨before, .phrase kind "" last (h.modifiers r ++ more)⟩ ++
        Node.preorderOfList (fun _ => true) ownType (h.modifiers r).reverse more := by
  rw [Node.preorder_eq, if_pos rfl, Node.children, Node.preorderOfList_append,
    preorderOfList_modifiers, List.append_nil, List.nil_append]

end Nodes

/-- No declaration of a skeleton is in a wrapper. -/
theorem members_node (row : Nat) (before : List Node) (d : Skeleton) :
    (d.node row).members before = (d.node row).declaredMembers before := by
  cases d <;> rfl

mutual

/-- The members and the types of a declaration. -/
theorem facts_node (row : Nat) (before : List Node) : (d : Skeleton) →
    leadingComment before = d.head.doc →
    (d.node row).declaredMembers before = d.member ∧
      (d.node row).preorder (fun _ => true) ownType before = d.facts
  | .field h, commented => by
    refine ⟨?_, ?_⟩
    · have declarators : (h.modifiers (row + h.rows) ++
          [Node.phrase .declarator "" (row + h.rows) [nameNode (row + h.rows) h.name.text]]).filter
            (·.isKind .declarator) =
          [Node.phrase .declarator "" (row + h.rows) [nameNode (row + h.rows) h.name.text]] := by
        rw [List.filter_append, List.filter_eq_nil_iff.2 fun n hn =>
          not_isKind_of_mem_modifiers h hn (by decide), List.nil_append]
        rfl
      rw [Skeleton.node, Node.declaredMembers]
      dsimp only
      rw [declarators, annotations_phrase h (by simp [Node.isKind]), commented]
      rfl
    · rw [Skeleton.node, preorder_phrase]
      rfl
  | .method h, commented => by
    refine ⟨?_, ?_⟩
    · rw [Skeleton.node, Node.declaredMembers]
      dsimp only
      rw [declaredName_phrase, annotations_phrase h (by simp [Node.isKind, nameNode]), commented]
      rfl
    · rw [Skeleton.node, preorder_phrase]
      rfl
  | .type h body, commented => by
    refine ⟨rfl, ?_⟩
    obtain ⟨members, types⟩ := facts_nodesOfList (row + h.rows + 1) [] body nofun
    let r := row + h.rows
    let last := r + 1 + Skeleton.rowsOfList body
    let inside := Node.phrase .body "" last (Skeleton.nodesOfList (r + 1) body)
    let type := Node.phrase .classDecl "" last (h.modifiers r ++ [nameNode r h.name.text, inside])
    have found : type.child? .body = some inside := by
      rw [Node.child?, Node.children, List.find?_append, List.find?_eq_none.2 fun n hn =>
        not_isKind_of_mem_modifiers h hn (by decide), Option.none_or]
      rfl
    have own : ownType ⟨before, type⟩ =
        [⟨h.name.text, h.annotationNames, h.doc, body.flatMap Skeleton.member⟩] := by
      have declared : type.isTypeDecl = true := rfl
      rw [ownType, if_pos declared, typeFact, found, Option.map_some, Option.getD_some,
        Node.children, members, declaredName_phrase,
        annotations_phrase h (by simp [Node.isKind, nameNode, inside]), commented]
      rfl
    have below : Node.preorderOfList (fun _ => true) ownType (h.modifiers r).reverse
        [nameNode r h.name.text, inside] = Skeleton.factsOfList body := by
      rw [Node.preorderOfList, Node.preorderOfList, Node.preorderOfList, nameNode, Node.preorder,
        Node.preorder, if_pos rfl, types, List.append_nil]
      rfl
    rw [Skeleton.node, preorder_phrase, own, below]
    rfl

theorem facts_nodesOfList (row : Nat) (before : List Node) : (ds : List Skeleton) →
    ClearBefore row before →
    Node.membersOfList before (Skeleton.nodesOfList row ds) = ds.flatMap Skeleton.member ∧
      Node.preorderOfList (fun _ => true) ownType before (Skeleton.nodesOfList row ds) =
        Skeleton.factsOfList ds
  | [], _ => ⟨rfl, rfl⟩
  | d :: ds, clear => by
    have commented := leadingComment_of_clearBefore clear d.head
    obtain ⟨member, types⟩ := facts_node row _ d commented
    obtain ⟨members', types'⟩ := facts_nodesOfList (row + d.rows) _ ds (clearBefore_node row d
      ((d.head.comments row).map Node.comment ++ before))
    refine ⟨?_, ?_⟩
    · rw [membersOfList_eq_preorderOfList, Skeleton.nodesOfList, Node.preorderOfList_append,
        preorderOfList_comments d.head (fun _ _ => rfl), reverse_comments, List.nil_append,
        Node.preorderOfList, ← membersOfList_eq_preorderOfList, members', ← members_eq_preorder,
        members_node, member, List.flatMap_cons]
    · rw [Skeleton.nodesOfList, Node.preorderOfList_append,
        preorderOfList_comments d.head (fun _ _ => rfl), reverse_comments, List.nil_append,
        Node.preorderOfList, types', types, Skeleton.factsOfList]

end

/-! ## Sources -/

/-- A class that is not inside another one. -/
structure ClassSkeleton where
  head : Heading
  body : List Skeleton

def ClassSkeleton.toSkeleton (d : ClassSkeleton) : Skeleton :=
  .type d.head d.body

/-- The source text that declares some classes. -/
def sourceOf (classes : List ClassSkeleton) : String :=
  String.ofList (Skeleton.charsOfList (classes.map ClassSkeleton.toSkeleton))

/-- The classes and those inside them, outer before inner. -/
def factsOf (classes : List ClassSkeleton) : List TypeFact :=
  Skeleton.factsOfList (classes.map ClassSkeleton.toSkeleton)

/-- The tree of the source text. -/
def treeOf (classes : List ClassSkeleton) : Node :=
  let declarations := classes.map ClassSkeleton.toSkeleton
  .phrase .program "" (Skeleton.rowsOfList declarations) (Skeleton.nodesOfList 0 declarations)

theorem declaredTypes_treeOf (classes : List ClassSkeleton) :
    (treeOf classes).declaredTypes = factsOf classes := by
  rw [declaredTypes_eq_preorder]
  exact (facts_nodesOfList 0 [] _ nofun).2

end CodeOutline.Java
