import CodeOutline.Report.Tree
import CodeOutline.Text.Quoted

/-!
# Reports in Markdown

A complete tree as text: a heading, a block for each namespace with an empty line after it, and in it
a line for each file, type, annotation list, method and field, indented by level. Each level keeps
the order of ingestion or is sorted by name.
-/

namespace CodeOutline.Report

open CodeOutline.Graph CodeOutline.Text

/-- In which order a report lists facts. -/
inductive Order where
  /-- The order in which facts were first stored. -/
  | insertion
  /-- By name, in the order of code points. -/
  | name
  deriving Repr, DecidableEq

/-- The name that settings use for the order. -/
def Order.label : Order → String
  | insertion => "insertion"
  | name => "name"

/-- The labels of all orders. -/
def Order.labels : String := ", ".intercalate [label insertion, label name]

/-- The order of that name. -/
def Order.ofLabel? : String → Option Order
  | "insertion" => some insertion
  | "name" => some name
  | _ => none

/-- The message for a label of no order. -/
def Order.unknownMessage (label : String) : String :=
  s!"order must be one of {labels}, got {quoted label}"

/-- The description in a report of a repository that has none. -/
def noDescription : String := "No description available"

/-- Sorts items of a level where the order asks for it. -/
def Order.arrange {α : Type} (order : Order) (key : α → String) (items : List α) : List α :=
  match order with
  | insertion => items
  | name => items.mergeSort fun a b => !decide (key b < key a)

def commas (parts : List String) : String := ", ".intercalate parts

/-- The line of a method or a field. -/
def memberLine (label : String) (m : MemberRow) : String :=
  s!"    - **{label}**: {m.name} ({commas m.annotations})\n"

/-- The lines of a type: its name and annotations, its methods, its fields. -/
def TypeBranch.render (order : Order) (t : TypeBranch) : String :=
  s!"  - **Class**: {t.fact.name}\n    - **Annotations**: [{commas t.fact.annotations}]\n" ++
    String.join ((order.arrange (·.name) (t.methods.getD [])).map (memberLine "Method")) ++
    String.join ((order.arrange (·.name) (t.fields.getD [])).map (memberLine "Field"))

/-- The lines of a file and its types. -/
def FileBranch.render (order : Order) (f : FileBranch) : String :=
  s!"- **File**: {f.fact.fileName}\n" ++
    String.join ((order.arrange (·.fact.name) (f.types.getD [])).map (TypeBranch.render order))

/-- The section of a namespace. -/
def NamespaceBranch.render (order : Order) (n : NamespaceBranch) : String :=
  s!"#### Package: {n.node.name}\n\n" ++
    String.join ((order.arrange (·.fact.path) (n.files.getD [])).map (FileBranch.render order)) ++ "\n"

/-- The description that a heading shows. -/
def Heading.shown (h : Heading) : String :=
  match h.description with
  | some s => if s.isEmpty then noDescription else s
  | none => noDescription

/-- The lines that open a report. -/
def Heading.render (h : Heading) : String :=
  s!"### Repository: {h.name}\n\n### Owner: {h.owner}\n\n{h.shown}\n\n"

/-- The report of a tree. -/
def Tree.render (order : Order) (t : Tree) : String :=
  t.heading.render ++
    String.join ((order.arrange (·.node.name) t.namespaces).map (NamespaceBranch.render order))

end CodeOutline.Report
