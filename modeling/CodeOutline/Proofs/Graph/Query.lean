import CodeOutline.Proofs.Graph.Children
import Mathlib.Data.List.Sort

/-!
# Children queries as the database answers them

The database selects the rows whose parents are among the given numbers, in an order that the query
asks for, and the caller appends each row to the list of its parent. Asked with all numbers at once, it
gives each parent its complete list. The store asks with one batch of numbers after the other; a parent
that stands in several batches is selected in each of them, and so its list is repeated
(`Answers.repeated`). Both ways agree exactly where no parent that has a row stands in two batches.
-/

namespace CodeOutline.Graph

/-- A children query. It orders the rows by `group` and, within a group, by `place`. -/
structure ChildQuery (α : Type) where
  parent : α → Id
  group : α → Int
  place : α → Int
  grouped : ∀ a b, parent a = parent b → group a = group b

namespace ChildQuery

variable {α : Type}

/-- The files of namespaces, by their numbers. -/
def files : ChildQuery SourceFile := ⟨(·.namespaceId), fun _ => 0, (·.id), fun _ _ _ => rfl⟩

/-- The types of files, file by file. -/
def types : ChildQuery TypeRow := ⟨(·.fileId), (·.fileId), fun t => t.position, fun _ _ h => h⟩

/-- The members of types, type by type. -/
def members : ChildQuery MemberRow := ⟨(·.typeId), (·.typeId), fun m => m.position, fun _ _ h => h⟩

/-- The order that the query asks for. -/
def le (q : ChildQuery α) (a b : α) : Bool :=
  q.group a < q.group b || q.group a = q.group b && q.place a ≤ q.place b

/-- The rows whose parents are among `ids`, in order. -/
def select (q : ChildQuery α) (rows : List α) (ids : List Id) : List α :=
  (rows.filter fun r => ids.contains (q.parent r)).mergeSort q.le

/-- Appends a row to the list of its parent. -/
def append (q : ChildQuery α) (answer : List (Id × List α)) (row : α) : List (Id × List α) :=
  answer.map fun (i, children) => (i, if q.parent row = i then children ++ [row] else children)

/-- The answer for `ids` that is made of the selected rows. -/
def collect (q : ChildQuery α) (ids : List Id) (selected : List α) : List (Id × List α) :=
  selected.foldl q.append (ids.eraseDups.map fun i => (i, []))

/-- The answer to one query for all of `ids`. -/
def single (q : ChildQuery α) (rows : List α) (ids : List Id) : List (Id × List α) :=
  q.collect ids (q.select rows ids)

/-- The answer to one query after the other, each for a batch of `ids`. -/
def batched (q : ChildQuery α) (rows : List α) (ids : List Id) : List (Id × List α) :=
  q.collect ids ((batches batchSize ids).flatMap (q.select rows))

/-- The children of each parent stand in the order of their places, no two of them in one place. -/
def Placed (q : ChildQuery α) (rows : List α) : Prop :=
  ∀ i, (rows.filter (q.parent · = i)).Pairwise fun a b => q.place a < q.place b

variable (q : ChildQuery α) {rows : List α}

/-! ## Collecting -/

theorem append_eq (answer : List (Id × List α)) (row : α) :
    q.append answer row =
      answer.map fun (i, children) => (i, children ++ [row].filter (q.parent · = i)) := by
  unfold append
  apply List.map_congr_left
  rintro ⟨i, children⟩ -
  by_cases h : q.parent row = i <;> simp [h]

/-- The rows of a parent keep their order. -/
theorem collect_eq (ids : List Id) (selected : List α) :
    q.collect ids selected = ids.eraseDups.map fun i => (i, selected.filter (q.parent · = i)) := by
  have seeded (answer : List (Id × List α)) : selected.foldl q.append answer =
      answer.map fun (i, children) => (i, children ++ selected.filter (q.parent · = i)) := by
    induction selected generalizing answer with
    | nil => simp
    | cons row rest ih =>
      rw [List.foldl_cons, ih, append_eq, List.map_map]
      apply List.map_congr_left
      rintro ⟨i, children⟩ -
      show (i, children ++ _ ++ _) = (i, children ++ _)
      rw [List.append_assoc, ← List.filter_append, List.singleton_append]
  rw [collect, seeded, List.map_map]
  rfl

/-! ## Selecting -/

theorem le_iff {a b : α} :
    q.le a b ↔ q.group a < q.group b ∨ q.group a = q.group b ∧ q.place a ≤ q.place b := by
  simp [le]

theorem le_trans (a b c : α) (hab : q.le a b) (hbc : q.le b c) : q.le a c := by
  rw [le_iff] at *
  omega

theorem le_total (a b : α) : q.le a b || q.le b a := by
  rw [Bool.or_eq_true, le_iff, le_iff]
  omega

/-- The children of a parent are arranged in one way only. -/
theorem eq_of_perm {own children : List α} (ordered : own.Pairwise fun a b => q.place a < q.place b)
    (sorted : children.Pairwise fun a b => q.place a ≤ q.place b) (same : children.Perm own) :
    children = own := by
  have places : (own.map q.place).Nodup := List.pairwise_map.2 (ordered.imp fun h => h.ne)
  refine same.eq_of_pairwise ?_ sorted (ordered.imp fun h => h.le)
  intro a b ha hb hab hba
  exact List.inj_on_of_nodup_map places (same.mem_iff.1 ha) hb (le_antisymm hab hba)

/-- The selected rows of a parent are all its rows, by ascending place. -/
theorem filter_select (placed : q.Placed rows) (ids : List Id) (i : Id) :
    (q.select rows ids).filter (q.parent · = i) =
      if ids.contains i then rows.filter (q.parent · = i) else [] := by
  have same : ((q.select rows ids).filter (q.parent · = i)).Perm
      ((rows.filter fun r => ids.contains (q.parent r)).filter (q.parent · = i)) :=
    (List.mergeSort_perm _ _).filter _
  rw [List.filter_filter] at same
  split
  · next hi =>
    have all : rows.filter (fun r => q.parent r = i && ids.contains (q.parent r)) =
        rows.filter (q.parent · = i) := by
      apply List.filter_congr
      intro r _
      by_cases h : q.parent r = i <;> simp [h, List.contains_iff_mem.1 hi]
    rw [all] at same
    have sorted : (q.select rows ids).Pairwise fun a b => q.le a b :=
      List.pairwise_mergeSort q.le_trans q.le_total _
    refine q.eq_of_perm (placed i) (List.pairwise_filter.2 (sorted.imp ?_)) same
    intro a b hab ha hb
    have group := q.grouped a b ((of_decide_eq_true ha).trans (of_decide_eq_true hb).symm)
    rw [le_iff] at hab
    omega
  · next hi =>
    have none : rows.filter (fun r => q.parent r = i && ids.contains (q.parent r)) = [] := by
      apply List.filter_eq_nil_iff.2
      intro r _ h
      rw [Bool.and_eq_true, decide_eq_true_eq] at h
      exact hi (h.1 ▸ h.2)
    rw [none] at same
    exact same.eq_nil

/-! ## Both ways of asking -/

theorem single_eq (placed : q.Placed rows) (ids : List Id) :
    q.single rows ids = ids.eraseDups.map fun i => (i, rows.filter (q.parent · = i)) := by
  rw [single, collect_eq]
  apply List.map_congr_left
  intro i hi
  rw [q.filter_select placed, if_pos (List.contains_iff_mem.2 (List.mem_eraseDups.1 hi))]

/-- What the store answers is what its queries, one for each batch, come to. -/
theorem batched_eq (placed : q.Placed rows) (ids : List Id) :
    q.batched rows ids = groupByParent q.parent rows ids := by
  rw [batched, collect_eq]
  apply List.map_congr_left
  intro i _
  rw [List.filter_flatMap]
  simp only [q.filter_select placed]

/-- What a children query answers for `ids`, asked in batches, beside what one query for all of them
would answer. -/
structure Answers (q : ChildQuery α) (rows : List α) (ids : List Id) (answer : List (Id × List α)) :
    Prop where
  asked : answer = q.batched rows ids
  /-- Either has one entry for each parent, in the order in which the parents first appear. -/
  parents : answer.map (·.1) = ids.eraseDups ∧ (q.single rows ids).map (·.1) = ids.eraseDups
  /-- The one query lists the children of each parent completely, each once and in order. -/
  children : ∀ i own, (i, own) ∈ q.single rows ids → own.Nodup ∧
    (∀ r, r ∈ own ↔ r ∈ rows ∧ q.parent r = i) ∧ own.Pairwise fun a b => q.place a < q.place b
  /-- Asked in batches, the store repeats that list for each batch that the parent stands in. -/
  repeated : answer = (q.single rows ids).map fun (i, own) =>
    (i, (List.replicate (batchesWith ids i) own).flatten)
  agrees : answer = q.single rows ids ↔
    ∀ i ∈ ids, (∃ r ∈ rows, q.parent r = i) → batchesWith ids i = 1
  usual : ids.Nodup ∨ ids.length ≤ batchSize → answer = q.single rows ids

/-- A list that is repeated is the list itself only if there is nothing in it, or only one of it. -/
theorem flatten_replicate_eq_iff {own : List α} {n : Nat} :
    (List.replicate n own).flatten = own ↔ (own ≠ [] → n = 1) := by
  constructor
  · intro h nonempty
    have length := congrArg List.length h
    rw [List.length_flatten, List.map_replicate, List.sum_replicate_nat] at length
    exact Nat.eq_of_mul_eq_mul_right (List.length_pos_iff.2 nonempty) (length.trans (Nat.one_mul _).symm)
  · intro h
    by_cases nonempty : own = []
    · simp [nonempty]
    · rw [h nonempty, List.replicate_one, List.flatten_singleton]

theorem answers (placed : q.Placed rows) (ids : List Id) :
    q.Answers rows ids (groupByParent q.parent rows ids) := by
  have single := q.single_eq placed ids
  have agrees : groupByParent q.parent rows ids = q.single rows ids ↔
      ∀ i ∈ ids, (∃ r ∈ rows, q.parent r = i) → batchesWith ids i = 1 := by
    rw [groupByParent_eq, single, List.map_inj_left]
    simp only [List.mem_eraseDups, Prod.mk.injEq, true_and, flatten_replicate_eq_iff]
    refine forall₂_congr fun i _ => imp_congr_left ?_
    simp [List.filter_eq_nil_iff]
  refine ⟨(q.batched_eq placed ids).symm, ⟨?_, ?_⟩, ?_, ?_, agrees, fun usual => agrees.2 ?_⟩
  · rw [groupByParent_eq, List.map_map]
    exact List.map_id _
  · rw [single, List.map_map]
    exact List.map_id _
  · intro i own h
    rw [single] at h
    obtain ⟨_, -, e⟩ := List.mem_map.1 h
    cases e
    refine ⟨(placed i).imp fun h e => ?_, fun r => by simp, placed i⟩
    exact absurd (congrArg q.place e) h.ne
  · rw [groupByParent_eq, single, List.map_map]
    rfl
  · intro i hi _
    exact usual.elim (fun h => batchesWith_of_nodup h hi) fun h => batchesWith_of_length_le h hi

end ChildQuery

/-! ## The three queries -/

namespace Store.Consistent

variable {s : Store}

/-- Rows whose places count up from zero ascend by place. -/
theorem ascending_of_range {α : Type} {place : α → Nat} {rows : List α}
    (h : rows.map place = List.range rows.length) :
    rows.Pairwise fun a b => (place a : Int) < place b := by
  have ascending : (rows.map place).Pairwise (· < ·) := h ▸ List.pairwise_lt_range
  exact (List.pairwise_map.1 ascending).imp Int.ofNat_lt.2

theorem filesFor_answers (h : s.Consistent) (ids : List Id) :
    ChildQuery.files.Answers s.files.rows ids (s.filesFor ids) :=
  ChildQuery.files.answers (fun _ => h.fileIds.ascending.filter _) ids

theorem typesFor_answers (h : s.Consistent) (ids : List Id) :
    ChildQuery.types.Answers s.types.rows ids (s.typesFor ids) :=
  ChildQuery.types.answers (fun i => ascending_of_range (h.typePositions i)) ids

theorem membersFor_answers (h : s.Consistent) (ids : List Id) :
    ChildQuery.members.Answers s.members.rows ids (s.membersFor ids) :=
  ChildQuery.members.answers (fun i => ascending_of_range (h.memberPositions i)) ids

end Store.Consistent

end CodeOutline.Graph
