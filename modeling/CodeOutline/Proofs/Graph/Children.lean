import CodeOutline.Graph.Children
import CodeOutline.Proofs.Data.Distinct
import CodeOutline.Proofs.Graph.Consistent

/-!
# Answers to children queries

A query answers with the rows of each parent, once for each batch that the parent stands in. Where each
parent is asked for once, or where all fit into one batch, those are exactly the parent's rows; and the
rows of different parents are different rows.
-/

namespace CodeOutline.Graph

/-- The number of batches that a parent stands in. -/
def batchesWith (ids : List Id) (i : Id) : Nat :=
  (batches batchSize ids).countP (·.contains i)

section Batches

variable {ids : List Id} {i : Id}

/-- Cutting a list into batches loses nothing. -/
theorem flatten_batches {α : Type} {size : Nat} (hsize : size ≠ 0) (l : List α) :
    (batches size l).flatten = l := by
  induction l using batches.induct size with
  | case1 l hnone =>
    rw [batches, dif_pos hnone, hnone.resolve_right hsize]
    rfl
  | case2 l hsome ih =>
    rw [batches, dif_neg hsome, List.flatten_cons, ih, List.take_append_drop]

theorem batchesWith_pos_iff : 0 < batchesWith ids i ↔ i ∈ ids := by
  have whole : i ∈ (batches batchSize ids).flatten ↔ i ∈ ids := by
    rw [flatten_batches (by decide)]
  rw [← whole, batchesWith, List.countP_pos_iff, List.mem_flatten]
  simp only [List.contains_iff_mem]

/-- A parent stands in at most as many batches as it is asked for. -/
theorem batchesWith_le_count (ids : List Id) (i : Id) : batchesWith ids i ≤ ids.count i := by
  have parts (parts : List (List Id)) : parts.countP (·.contains i) ≤ parts.flatten.count i := by
    induction parts with
    | nil => exact Nat.zero_le _
    | cons part rest ih =>
      rw [List.countP_cons, List.flatten_cons, List.count_append]
      split
      · next h =>
        have here : 0 < part.count i := List.count_pos_iff.2 (List.contains_iff_mem.1 h)
        omega
      · omega
  have whole := parts (batches batchSize ids)
  rwa [flatten_batches (by decide)] at whole

theorem batchesWith_of_nodup (h : ids.Nodup) (hi : i ∈ ids) : batchesWith ids i = 1 := by
  have once : ids.count i ≤ 1 := List.nodup_iff_count_le_one.1 h i
  have most := batchesWith_le_count ids i
  have least := batchesWith_pos_iff.2 hi
  omega

theorem batchesWith_of_length_le (h : ids.length ≤ batchSize) (hi : i ∈ ids) :
    batchesWith ids i = 1 := by
  have some : ¬ (ids = [] ∨ batchSize = 0) := by
    simp [List.ne_nil_of_mem hi, batchSize]
  have last : batches batchSize (ids.drop batchSize) = [] := by
    rw [List.drop_of_length_le h, batches, dif_pos (.inl rfl)]
  rw [batchesWith, batches, dif_neg some, last, List.take_of_length_le h, List.countP_singleton,
    if_pos (List.contains_iff_mem.2 hi)]

end Batches

/-- Each parent has its rows once for each batch that it stands in. -/
theorem groupByParent_eq {α : Type} (parent : α → Id) (rows : List α) (ids : List Id) :
    groupByParent parent rows ids = ids.eraseDups.map fun i =>
      (i, (List.replicate (batchesWith ids i) (rows.filter (parent · = i))).flatten) := by
  have repeated (i : Id) (parts : List (List Id)) (children : List α) :
      (parts.flatMap fun part => if part.contains i then children else []) =
        (List.replicate (parts.countP (·.contains i)) children).flatten := by
    induction parts with
    | nil => rfl
    | cons part rest ih =>
      rw [List.flatMap_cons, ih, List.countP_cons]
      split
      · rw [List.replicate_succ, List.flatten_cons]
      · rfl
  apply List.map_congr_left
  intro i _
  rw [repeated, batchesWith]

theorem groupByParent_of_nodup {α : Type} (parent : α → Id) (rows : List α) {ids : List Id}
    (h : ids.Nodup) :
    groupByParent parent rows ids = ids.map fun i => (i, rows.filter (parent · = i)) := by
  rw [groupByParent_eq, eraseDups_of_nodup h]
  apply List.map_congr_left
  intro i hi
  rw [batchesWith_of_nodup h hi, List.replicate_one, List.flatten_singleton]

/-- The rows of different parents are different rows. -/
theorem nodup_children {α : Type} {id : α → Id} {t : Table α} (parent : α → Id) {parents : List Id}
    (h : parents.Nodup) (ordered : t.Ordered id) :
    ((parents.flatMap fun i => t.rows.filter (parent · = i)).map id).Nodup := by
  have rows : t.rows.Nodup := ordered.nodup.of_map id
  refine List.Nodup.map_on (fun a ha b hb e => ?_) (List.nodup_flatMap.2 ⟨fun i _ => rows.filter _, ?_⟩)
  · obtain ⟨_, -, ha⟩ := List.mem_flatMap.1 ha
    obtain ⟨_, -, hb⟩ := List.mem_flatMap.1 hb
    exact ordered.eq_of_id (List.mem_filter.1 ha).1 (List.mem_filter.1 hb).1 e
  · refine h.imp fun {i j} hij a ha hb => hij ?_
    rw [← of_decide_eq_true (List.mem_filter.1 ha).2, of_decide_eq_true (List.mem_filter.1 hb).2]

end CodeOutline.Graph
