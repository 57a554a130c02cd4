import CodeOutline.Graph.Store

/-!
# Children queries

The files of namespaces, the types of files, the members of types. A query takes many parents at once
and asks the store in batches; the answer has an entry for each parent, in the order in which the
parents first appear.
-/

namespace CodeOutline.Graph

/-- The number of parents that the store is asked for at once. -/
def batchSize : Nat := 500

/-- The list cut into batches. -/
def batches {α : Type} (size : Nat) (l : List α) : List (List α) :=
  if _h : l = [] ∨ size = 0 then []
  else l.take size :: batches size (l.drop size)
termination_by l.length
decreasing_by
  obtain ⟨h₁, h₂⟩ := not_or.1 _h
  have := List.length_pos_iff.2 h₁
  simp only [List.length_drop]
  omega

/-- The rows grouped by parent. A parent that is in several batches gets its rows once for each. -/
def groupByParent {α : Type} (parent : α → Id) (rows : List α) (ids : List Id) :
    List (Id × List α) :=
  ids.eraseDups.map fun id =>
    (id, (batches batchSize ids).flatMap fun batch =>
      if batch.contains id then rows.filter (parent · = id) else [])

namespace Store

/-- The files of each namespace. -/
def filesFor (s : Store) (namespaceIds : List Id) : List (Id × List SourceFile) :=
  groupByParent (·.namespaceId) s.files.rows namespaceIds

/-- The types of each file. -/
def typesFor (s : Store) (fileIds : List Id) : List (Id × List TypeRow) :=
  groupByParent (·.fileId) s.types.rows fileIds

/-- The members of each type. -/
def membersFor (s : Store) (typeIds : List Id) : List (Id × List MemberRow) :=
  groupByParent (·.typeId) s.members.rows typeIds

end Store

end CodeOutline.Graph
