import CodeOutline.Proofs.Graph.Children
import CodeOutline.Proofs.Graph.Content
import CodeOutline.Proofs.Json.Texts

/-!
# Rows in columns

The tables of types and members have a column of text for the annotations, which holds them as JSON, and
one for the name of a member's kind. A row is read back from its columns as it was written, and so the
queries for types and members give the facts of a file (`readFacts_eq`).
-/

namespace CodeOutline.Graph

open CodeOutline.Data

/-- The column for annotations. -/
def annotationsColumn (annotations : List String) : String :=
  Json.write (.list (annotations.map .text))

/-- The texts, if every value is one. -/
def textsOf? : List Datum → Option (List String)
  | [] => some []
  | .text s :: rest => (textsOf? rest).map (s :: ·)
  | _ => none

/-- The annotations in a column. -/
def annotationsOf? (column : String) : Option (List String) :=
  match Json.readText column.toList with
  | .ok (.list items) => textsOf? items
  | _ => none

/-- The columns of a type. -/
structure TypeColumns where
  id : Id
  fileId : Id
  position : Nat
  name : String
  annotations : String
  comment : Option String
  deriving Repr, DecidableEq

/-- The columns of a member. -/
structure MemberColumns where
  id : Id
  typeId : Id
  position : Nat
  name : String
  kind : String
  annotations : String
  comment : Option String
  deriving Repr, DecidableEq

def TypeRow.columns (u : TypeRow) : TypeColumns :=
  ⟨u.id, u.fileId, u.position, u.name, annotationsColumn u.annotations, u.comment⟩

def MemberRow.columns (m : MemberRow) : MemberColumns :=
  ⟨m.id, m.typeId, m.position, m.name, m.kind.name, annotationsColumn m.annotations, m.comment⟩

/-- The type in the columns. -/
def TypeColumns.row? (c : TypeColumns) : Option TypeRow :=
  match annotationsOf? c.annotations with
  | some annotations => some ⟨c.id, c.fileId, c.position, c.name, annotations, c.comment⟩
  | none => none

/-- The member in the columns. -/
def MemberColumns.row? (c : MemberColumns) : Option MemberRow :=
  match MemberKind.ofName? c.kind, annotationsOf? c.annotations with
  | some kind, some annotations =>
    some ⟨c.id, c.typeId, c.position, c.name, kind, annotations, c.comment⟩
  | _, _ => none

theorem textsOf?_map (texts : List String) : textsOf? (texts.map .text) = some texts := by
  induction texts with
  | nil => rfl
  | cons s rest ih => rw [List.map_cons, textsOf?, ih, Option.map_some]

theorem annotationsOf?_annotationsColumn (annotations : List String) :
    annotationsOf? (annotationsColumn annotations) = some annotations := by
  rw [annotationsOf?, annotationsColumn, Json.readText_write_texts]
  exact textsOf?_map annotations

@[simp] theorem TypeRow.row?_columns (u : TypeRow) : u.columns.row? = some u := by
  simp [columns, TypeColumns.row?, annotationsOf?_annotationsColumn]

@[simp] theorem MemberRow.row?_columns (m : MemberRow) : m.columns.row? = some m := by
  simp [columns, MemberColumns.row?, MemberKind.ofName?_name, annotationsOf?_annotationsColumn]

theorem mapM_row?_columns (members : List MemberRow) :
    (members.map MemberRow.columns).mapM MemberColumns.row? = some members := by
  induction members with
  | nil => rfl
  | cons m rest ih =>
    rw [List.map_cons, List.mapM_cons, ih, MemberRow.row?_columns]
    rfl

/-- What the columns of a type and of its members say. -/
def factOf? (type : TypeColumns) (members : List MemberColumns) : Option TypeFact := do
  let u ← type.row?
  let ms ← members.mapM MemberColumns.row?
  return ⟨u.name, u.annotations, u.comment, ms.map MemberRow.fact⟩

namespace Store

/-- The types of a file as the queries give them: the types are asked for first, and then the members of
all of them. -/
def readFacts (s : Store) (fileId : Id) : List (Option TypeFact) :=
  let types := (s.typesFor [fileId]).flatMap (·.2)
  types.zipWith (fun u answer => factOf? u.columns (answer.2.map MemberRow.columns))
    (s.membersFor (types.map (·.id)))

variable {s : Store}

theorem typesFor_singleton (s : Store) (fileId : Id) :
    s.typesFor [fileId] = [(fileId, s.typesIn fileId)] :=
  groupByParent_of_nodup TypeRow.fileId s.types.rows (List.nodup_singleton fileId)

theorem Consistent.membersFor_typesIn (h : s.Consistent) (fileId : Id) :
    s.membersFor ((s.typesIn fileId).map (·.id)) =
      (s.typesIn fileId).map fun u => (u.id, s.membersIn u.id) := by
  have distinct : ((s.typesIn fileId).map (·.id)).Nodup :=
    h.typeIds.nodup.sublist (List.filter_sublist.map _)
  rw [membersFor, groupByParent_of_nodup MemberRow.typeId s.members.rows distinct, List.map_map]
  rfl

/-- The queries give what is stored about a file. -/
theorem Consistent.readFacts_eq (h : s.Consistent) (fileId : Id) :
    s.readFacts fileId = (s.factsIn fileId).map some := by
  unfold readFacts factsIn
  simp only [typesFor_singleton, List.flatMap_cons, List.flatMap_nil, List.append_nil,
    h.membersFor_typesIn, List.zipWith_map_right, List.zipWith_self, List.map_map]
  refine List.map_congr_left fun u _ => ?_
  simp only [factOf?, TypeRow.row?_columns, mapM_row?_columns]
  rfl

end Store

end CodeOutline.Graph
