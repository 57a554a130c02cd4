import CodeOutline.Java.Token

/-!
# Syntax trees

A tree of the nodes that matter to a reader of declarations. Punctuation has no node. A comment is a
node among the others, a child of the smallest node that has tokens on both sides of it.
-/

namespace CodeOutline.Java

/-- What a node of the tree is, as far as the outline asks for it. -/
inductive Kind where
  | program
  | package
  | classDecl
  | interfaceDecl
  | enumDecl
  | recordDecl
  | annotationDecl
  /-- The braces of a type declaration and what is between them. -/
  | body
  /-- The members of an enum, from the semicolon after its constants on. -/
  | enumMembers
  | enumConstant
  | method
  /-- An element of an annotation type, such as `int value() default 1;`. -/
  | annotationElement
  | field
  /-- A field of an interface or an annotation type. -/
  | constant
  /-- One declared variable with its initial value. -/
  | declarator
  | modifiers
  | annotationUse
  /-- The name of the declaration, variable or annotation that it is a child of. -/
  | name
  /-- Any other phrase: a statement, an expression, a type, a parameter list. -/
  | other
  deriving Repr, DecidableEq

/-- The tree of a source text. Tokens that nothing asks for are left out. -/
inductive Node where
  | comment (c : Comment)
  /-- A phrase of the grammar. Only names keep their text. -/
  | phrase (kind : Kind) (text : String) (endRow : Nat) (children : List Node)
  deriving Repr

namespace Node

/-- The row on which the node ends. -/
def endRow : Node → Nat
  | comment c => c.endRow
  | phrase _ _ endRow _ => endRow

/-- The source text that the node covers. -/
def text : Node → String
  | comment c => c.text
  | phrase _ text _ _ => text

/-- The nodes directly below, in source order. -/
def children : Node → List Node
  | comment _ => []
  | phrase _ _ _ children => children

/-- The node is a phrase of the given kind. -/
def isKind (kind : Kind) : Node → Bool
  | comment _ => false
  | phrase k _ _ _ => k = kind

/-- The first child of the given kind. -/
def child? (node : Node) (kind : Kind) : Option Node :=
  node.children.find? (·.isKind kind)

/-- The declared name; empty if the node declares none. -/
def declaredName (node : Node) : String :=
  match node.child? .name with
  | some name => name.text
  | none => ""

end Node

end CodeOutline.Java
