import CodeOutline.Proofs.Data.Equality

/-!
# Entries of maps

What putting an entry into a map does to look-ups by name, and that it keeps the keys of the map
different from each other.
-/

namespace CodeOutline.Data.Datum

/-- No two keys of the entries are the same. -/
def Distinct (entries : List (Datum × Datum)) : Prop :=
  entries.Pairwise fun a b => ¬ sameKey a.1 b.1

variable {k v : Datum} {name : String} {entries : List (Datum × Datum)}

theorem key?_eq_text_iff : k.key? = some (.text name) ↔ k = .text name := by
  cases k with
  | float x =>
    simp only [key?, Option.some.injEq, reduceCtorEq, iff_false]
    cases x.toInt? <;> exact nofun
  | _ => simp [key?]

theorem key?_text (name : String) : (text name).key? = some (.text name) := rfl

theorem sameKey_iff {l : Datum} :
    sameKey k l ↔ ∃ key, k.key? = some key ∧ l.key? = some key := by
  unfold sameKey
  cases k.key? with
  | none => simp
  | some a =>
    cases l.key? with
    | none => simp
    | some b => simp [eq_comm]

/-- A name is the same key as no other value. -/
theorem sameKey_text_iff : sameKey k (.text name) ↔ k = .text name := by
  rw [sameKey_iff, ← key?_eq_text_iff]
  simp [key?_text]

theorem sameKey_comm (k l : Datum) : sameKey k l = sameKey l k := by
  rw [Bool.eq_iff_iff, sameKey_iff, sameKey_iff]
  simp only [and_comm]

/-! ## Look-ups -/

theorem get?_cons_self (v : Datum) (rest : List (Datum × Datum)) :
    get? name ((.text name, v) :: rest) = some v := by
  simp [get?, find?, sameKey_text_iff]

theorem get?_cons_of_ne (h : k ≠ .text name) (v : Datum) (rest : List (Datum × Datum)) :
    get? name ((k, v) :: rest) = get? name rest := by
  simp [get?, find?, sameKey_text_iff, h]

theorem get?_put_self (v : Datum) (entries : List (Datum × Datum)) :
    get? name (put (.text name) v entries) = some v := by
  induction entries with
  | nil => exact get?_cons_self v []
  | cons entry rest ih =>
    obtain ⟨l, w⟩ := entry
    unfold put
    split
    · next same =>
      rw [sameKey_text_iff.1 same]
      exact get?_cons_self v rest
    · next other =>
      rw [sameKey_text_iff] at other
      rw [get?_cons_of_ne other]
      exact ih

theorem get?_put_of_ne (h : k ≠ .text name) (v : Datum) (entries : List (Datum × Datum)) :
    get? name (put k v entries) = get? name entries := by
  induction entries with
  | nil => exact get?_cons_of_ne h v []
  | cons entry rest ih =>
    obtain ⟨l, w⟩ := entry
    unfold put
    by_cases named : l = .text name
    · have other : ¬ sameKey l k := by
        rw [named, sameKey_comm, sameKey_text_iff]
        exact h
      rw [if_neg other, named, get?_cons_self, get?_cons_self]
    · rw [get?_cons_of_ne named]
      split
      · exact get?_cons_of_ne named v rest
      · rw [get?_cons_of_ne named]
        exact ih

theorem mem_of_get? (h : get? name entries = some v) : (.text name, v) ∈ entries := by
  unfold get? find? at h
  obtain ⟨e, found, rfl⟩ := Option.map_eq_some_iff.1 h
  have same : sameKey e.1 (.text name) := by simpa using List.find?_some found
  rw [← sameKey_text_iff.1 same]
  exact List.mem_of_find?_eq_some found

/-- A name that is given by another entry is given by no other of different keys. -/
theorem get?_of_distinct {rest : List (Datum × Datum)}
    (distinct : Distinct ((.text name, v) :: rest)) : get? name rest = none := by
  obtain ⟨others, -⟩ := List.pairwise_cons.1 distinct
  cases h : get? name rest with
  | none => rfl
  | some w =>
    exact absurd (sameKey_text_iff.2 rfl) (others _ (mem_of_get? h))

/-! ## Different keys -/

/-- An entry of the map with a value put in is an old one, or has the value under the key or under an
old key. -/
theorem mem_put {e : Datum × Datum} (h : e ∈ put k v entries) :
    e ∈ entries ∨ e.2 = v ∧ (e.1 = k ∨ ∃ old ∈ entries, old.1 = e.1) := by
  induction entries with
  | nil =>
    cases List.mem_singleton.1 h
    exact .inr ⟨rfl, .inl rfl⟩
  | cons entry rest ih =>
    unfold put at h
    split at h
    · rcases List.mem_cons.1 h with rfl | h
      · exact .inr ⟨rfl, .inr ⟨entry, List.mem_cons_self, rfl⟩⟩
      · exact .inl (List.mem_cons_of_mem _ h)
    · rcases List.mem_cons.1 h with rfl | h
      · exact .inl List.mem_cons_self
      · rcases ih h with h | ⟨value, h | ⟨old, h, same⟩⟩
        · exact .inl (List.mem_cons_of_mem _ h)
        · exact .inr ⟨value, .inl h⟩
        · exact .inr ⟨value, .inr ⟨old, List.mem_cons_of_mem _ h, same⟩⟩

theorem Distinct.put (h : Distinct entries) (k v : Datum) : Distinct (put k v entries) := by
  induction entries with
  | nil => exact List.pairwise_singleton _ _
  | cons entry rest ih =>
    obtain ⟨others, distinct⟩ := List.pairwise_cons.1 h
    unfold Datum.put
    split
    · exact List.pairwise_cons.2 ⟨others, distinct⟩
    · next other =>
      refine List.pairwise_cons.2 ⟨?_, ih distinct⟩
      intro e he
      rcases mem_put he with he | ⟨-, here | ⟨old, hold, same⟩⟩
      · exact others e he
      · rw [here]
        exact other
      · rw [← same]
        exact others old hold

/-- The keys of a mapping, and of the mappings that stand under its keys, are different. -/
inductive WellKeyed : List (Datum × Datum) → Prop where
  | of {entries : List (Datum × Datum)} (distinct : Distinct entries)
      (inside : ∀ key inner, (key, .map inner) ∈ entries → WellKeyed inner) : WellKeyed entries

theorem WellKeyed.distinct (h : WellKeyed entries) : Distinct entries := by
  cases h with
  | of distinct inside => exact distinct

theorem WellKeyed.inner {key : Datum} {inner : List (Datum × Datum)} (h : WellKeyed entries)
    (entry : (key, .map inner) ∈ entries) : WellKeyed inner := by
  cases h with
  | of distinct inside => exact inside key inner entry

theorem WellKeyed.nil : WellKeyed [] := .of .nil nofun

theorem WellKeyed.put (h : WellKeyed entries) (k v : Datum)
    (inside : ∀ inner, v = .map inner → WellKeyed inner) : WellKeyed (put k v entries) := by
  refine .of (h.distinct.put k v) ?_
  intro key inner entry
  rcases mem_put entry with entry | ⟨rfl, -⟩
  · exact h.inner entry
  · exact inside inner rfl

end CodeOutline.Data.Datum
