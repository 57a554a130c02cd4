import CodeOutline.Graph.Store
import Mathlib.Data.Int.Order.Basic
import Mathlib.Data.List.Nodup
import Mathlib.Order.Basic

/-!
# Numbers of rows

A table hands out its numbers in ascending order and remembers the greatest one, so a number that was
in use once is never given to another row. `Ordered` is what a table looks like at any time;
`Continues` says how a later state of a table is related to an earlier one: each of its rows is a row
of the earlier state, possibly updated, or has a number that was not used by then. Each writing
statement of the store pushes a row, updates rows in place, or removes some (`push`, `map`, `filter`).
-/

namespace CodeOutline.Graph.Table

variable {α : Type} {id : α → Id} {same : α → α → Prop} {t t' t'' : Table α}

/-- The numbers ascend, and none is above the greatest one used. -/
structure Ordered (id : α → Id) (t : Table α) : Prop where
  ascending : t.rows.Pairwise fun a b => id a < id b
  bounded : ∀ r ∈ t.rows, id r ≤ t.lastId

/-- Each row of `t'` is a row of `t` of the same number, or its number was unused in `t`. What an
update keeps of a row is `same`. -/
structure Continues (id : α → Id) (same : α → α → Prop) (t t' : Table α) : Prop where
  lastId_le : t.lastId ≤ t'.lastId
  row : ∀ r' ∈ t'.rows, id r' ≤ t.lastId → ∃ r ∈ t.rows, id r = id r' ∧ same r r'

/-- Some row has the number `i`. -/
def Has (id : α → Id) (t : Table α) (i : Id) : Prop := ∃ r ∈ t.rows, id r = i

/-- The number that a row has in the states `before` and `after` is its own in both, and at all times
between them. -/
def KeepsNumbers (id : α → Id) (same : α → α → Prop) (before between after : Table α) : Prop :=
  ∀ r ∈ before.rows, ∀ r' ∈ after.rows, id r = id r' →
    same r r' ∧ ∃ m ∈ between.rows, id m = id r ∧ same r m ∧ same m r'

theorem id_update (id : α → Id) (row r : α) : id (if id r = id row then row else r) = id r := by
  split
  · exact Eq.symm ‹_›
  · rfl

/-! ## Numbers in use -/

namespace Has

variable {i : Id}

theorem of_mem {r : α} (hr : r ∈ t.rows) : t.Has id (id r) := ⟨r, hr, rfl⟩

theorem push (h : t.Has id i) (row : α) : (t.push row).Has id i := by
  obtain ⟨r, hr, e⟩ := h
  exact ⟨r, List.mem_append_left _ hr, e⟩

theorem push_self (t : Table α) (row : α) : (t.push row).Has id (id row) :=
  ⟨row, List.mem_append_right _ (List.mem_singleton_self _), rfl⟩

theorem map (h : t.Has id i) {f : α → α} (hf : ∀ r, id (f r) = id r) (n : Id) :
    (⟨t.rows.map f, n⟩ : Table α).Has id i := by
  obtain ⟨r, hr, e⟩ := h
  exact ⟨f r, List.mem_map_of_mem hr, (hf r).trans e⟩

theorem update (h : t.Has id i) (row : α) (n : Id) :
    (⟨t.rows.map fun r => if id r = id row then row else r, n⟩ : Table α).Has id i :=
  h.map (id_update id row) n

end Has

/-! ## Order -/

namespace Ordered

@[simp] theorem nil : Ordered id ({} : Table α) := ⟨.nil, fun _ h => nomatch h⟩

theorem lt_nextId (h : t.Ordered id) {r : α} (hr : r ∈ t.rows) : id r < t.nextId :=
  Int.lt_add_one_of_le (h.bounded r hr)

theorem push (h : t.Ordered id) {row : α} (hid : id row = t.nextId) : (t.push row).Ordered id where
  ascending := by
    refine List.pairwise_append.2 ⟨h.ascending, List.pairwise_singleton _ _, fun a ha b hb => ?_⟩
    rw [List.mem_singleton.1 hb, hid]
    exact h.lt_nextId ha
  bounded r hr := by
    rcases List.mem_append.1 hr with hr | hr
    · exact (h.lt_nextId hr).le
    · rw [List.mem_singleton.1 hr, hid]
      exact le_refl _

theorem map (h : t.Ordered id) {f : α → α} (hf : ∀ r, id (f r) = id r) {n : Id} (hn : t.lastId ≤ n) :
    (⟨t.rows.map f, n⟩ : Table α).Ordered id where
  ascending := List.pairwise_map.2 (h.ascending.imp fun hab => by rwa [hf, hf])
  bounded r hr := by
    obtain ⟨q, hq, rfl⟩ := List.mem_map.1 hr
    rw [hf]
    exact (h.bounded q hq).trans hn

theorem update (h : t.Ordered id) (row : α) :
    (⟨t.rows.map fun r => if id r = id row then row else r, t.nextId⟩ : Table α).Ordered id :=
  h.map (id_update id row) (Int.le_add_one (le_refl _))

theorem filter (h : t.Ordered id) (p : α → Bool) :
    ({ t with rows := t.rows.filter p } : Table α).Ordered id where
  ascending := h.ascending.filter p
  bounded r hr := h.bounded r (List.mem_filter.1 hr).1

theorem nodup (h : t.Ordered id) : (t.rows.map id).Nodup :=
  List.pairwise_map.2 (h.ascending.imp fun hab => hab.ne)

theorem nextId_fresh (h : t.Ordered id) : ¬ t.Has id t.nextId := by
  rintro ⟨r, hr, e⟩
  exact absurd e (h.lt_nextId hr).ne

/-- A number stands for one row. -/
theorem eq_of_id (h : t.Ordered id) {r q : α} (hr : r ∈ t.rows) (hq : q ∈ t.rows)
    (e : id r = id q) : r = q :=
  List.inj_on_of_nodup_map h.nodup hr hq e

end Ordered

/-! ## Keys -/

section Key

variable {κ : Type} {row : α}

theorem nodup_key_push {key : α → κ} (h : (t.rows.map key).Nodup) (hrow : key row ∉ t.rows.map key) :
    ((t.push row).rows.map key).Nodup := by
  rw [push, List.map_append, List.nodup_append]
  refine ⟨h, List.nodup_singleton _, fun a ha b hb e => ?_⟩
  rw [e, List.mem_singleton.1 hb] at ha
  exact hrow ha

theorem nodup_key_filter {key : α → κ} (h : (t.rows.map key).Nodup) (p : α → Bool) :
    ((t.rows.filter p).map key).Nodup :=
  h.sublist (List.filter_sublist.map key)

/-- Where names are unique within each part, those of one part are unique. -/
theorem nodup_names_of_part {ν : Type} [DecidableEq κ] {part : α → κ} {name : α → ν} {rows : List α}
    (h : (rows.map fun r => (part r, name r)).Nodup) (key : κ) :
    ((rows.filter (part · = key)).map name).Nodup := by
  have pairs : (rows.filter (part · = key)).map (fun r => (part r, name r)) =
      ((rows.filter (part · = key)).map name).map fun x => (key, x) := by
    rw [List.map_map]
    refine List.map_congr_left fun r hr => ?_
    rw [of_decide_eq_true (List.mem_filter.1 hr).2]
    rfl
  refine List.Nodup.of_map (fun x => (key, x)) ?_
  rw [← pairs]
  exact h.sublist (List.filter_sublist.map _)

/-- Putting a row in the place of the one that has its number leaves all keys as they are. -/
theorem map_key_update (id : α → Id) (key : α → κ) {rows : List α}
    (h : ∀ r ∈ rows, id r = id row → key row = key r) :
    (rows.map fun r => if id r = id row then row else r).map key = rows.map key := by
  rw [List.map_map]
  refine List.map_congr_left fun r hr => ?_
  simp only [Function.comp_apply]
  split
  · exact h r hr ‹_›
  · rfl

theorem nodup_key_update (id : α → Id) {key : α → κ} {rows : List α} (hrows : (rows.map key).Nodup)
    (h : ∀ r ∈ rows, id r = id row → key row = key r) :
    ((rows.map fun r => if id r = id row then row else r).map key).Nodup := by
  rwa [map_key_update id key h]

end Key

/-! ## Continuity -/

namespace Continues

theorem refl (hs : ∀ r, same r r) (t : Table α) : t.Continues id same t :=
  ⟨le_refl _, fun r hr _ => ⟨r, hr, rfl, hs r⟩⟩

theorem trans (hs : ∀ a b c, same a b → same b c → same a c) (h : t.Continues id same t')
    (h' : t'.Continues id same t'') : t.Continues id same t'' where
  lastId_le := h.lastId_le.trans h'.lastId_le
  row r'' hr'' hle := by
    obtain ⟨r', hr', e', s'⟩ := h'.row r'' hr'' (hle.trans h.lastId_le)
    obtain ⟨r, hr, e, s⟩ := h.row r' hr' (e' ▸ hle)
    exact ⟨r, hr, e.trans e', hs _ _ _ s s'⟩

theorem push (hs : ∀ r, same r r) {row : α} (hid : id row = t.nextId) :
    t.Continues id same (t.push row) where
  lastId_le := Int.le_add_one (le_refl t.lastId)
  row r hr hle := by
    rcases List.mem_append.1 hr with hr | hr
    · exact ⟨r, hr, rfl, hs r⟩
    · rw [List.mem_singleton.1 hr, hid] at hle
      exact absurd (Int.lt_succ t.lastId) (not_lt.2 hle)

theorem map {f : α → α} (hf : ∀ r ∈ t.rows, id (f r) = id r ∧ same r (f r)) {n : Id}
    (hn : t.lastId ≤ n) : t.Continues id same ⟨t.rows.map f, n⟩ where
  lastId_le := hn
  row r hr _ := by
    obtain ⟨q, hq, rfl⟩ := List.mem_map.1 hr
    exact ⟨q, hq, (hf q hq).1.symm, (hf q hq).2⟩

theorem update (hs : ∀ r, same r r) {row : α} (h : ∀ r ∈ t.rows, id r = id row → same r row) :
    t.Continues id same ⟨t.rows.map fun r => if id r = id row then row else r, t.nextId⟩ := by
  refine .map (fun r hr => ⟨id_update id row r, ?_⟩) (Int.le_add_one (le_refl _))
  split
  · exact h r hr ‹_›
  · exact hs r

theorem filter (hs : ∀ r, same r r) (p : α → Bool) :
    t.Continues id same { t with rows := t.rows.filter p } where
  lastId_le := le_refl _
  row r hr _ := ⟨r, (List.mem_filter.1 hr).1, rfl, hs r⟩

/-- A row that was gone in between cannot come back: its number is not handed out again. -/
theorem keepsNumbers (hs : ∀ a b c, same a b → same b c → same a c) (before : t.Ordered id)
    (h : t.Continues id same t') (h' : t'.Continues id same t'') :
    KeepsNumbers id same t t' t'' := by
  intro r hr r'' hr'' e
  have hle : id r'' ≤ t'.lastId := e ▸ (before.bounded r hr).trans h.lastId_le
  obtain ⟨m, hm, em, sm⟩ := h'.row r'' hr'' hle
  obtain ⟨q, hq, eq, sq⟩ := h.row m hm (em.trans e.symm ▸ before.bounded r hr)
  obtain rfl : q = r := before.eq_of_id hq hr (eq.trans (em.trans e.symm))
  exact ⟨hs _ _ _ sq sm, m, hm, eq.symm, sq, sm⟩

end Continues

end CodeOutline.Graph.Table
