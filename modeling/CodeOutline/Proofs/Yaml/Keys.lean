import CodeOutline.Proofs.Data.Entries
import CodeOutline.Proofs.Data.Outcome
import CodeOutline.Yaml.Value

/-!
# Keys of a document

A key that a mapping is given twice is one key of its value, so the keys of every mapping that a text
writes are different.

The value of a collection is put together from those of what stands in it, and no scalar is a mapping.
That the scalars which have been met are kept as such (`ScalarsMet`) goes through all that is done
while the collections are opened.
-/

namespace CodeOutline.Yaml

open CodeOutline.Data

/-! ## Scalars -/

section Scalars

variable {text : String} {entries : List (Datum × Datum)}

theorem Scalar.moment_ne_map : Scalar.moment text ≠ .ok (.map entries) := by
  intro h
  unfold Scalar.moment at h
  dsimp only at h
  split at h
  · cases h
  · split at h
    · split at h <;> cases h
    · split at h
      · cases h
      · split at h <;> cases h

theorem Scalar.value_ne_map {kind : Kind} : Scalar.value kind text ≠ .ok (.map entries) := by
  have renamed {α : Type} (answer : Except Fault α) (f : α → Datum) (h : ∀ a, f a ≠ .map entries) :
      answer.map f ≠ .ok (.map entries) := by
    cases answer with
    | error fault => exact nofun
    | ok a => exact fun same => h a (Except.ok.inj same)
  cases kind with
  | moment => exact Scalar.moment_ne_map
  | bool | int | float | binary => exact renamed _ _ nofun
  | _ => exact nofun

end Scalars

namespace Building

/-- No scalar that has been met is a mapping. -/
def ScalarsMet (b : Building) : Prop :=
  ∀ (id : NodeId) (entries : List (Datum × Datum)), b.scalars[id]? ≠ some (some (.map entries))

variable {b b' : Building}

theorem ScalarsMet.meet (h : b.ScalarsMet) {id : NodeId} (ok : b.meet id = .ok b') :
    b'.ScalarsMet := by
  unfold Building.meet at ok
  dsimp only at ok
  split at ok
  · cases ok
    split
    · exact h
    · exact h
  · split at ok
    · cases ok
      exact h
    · split at ok
      · cases ok
      · obtain ⟨v, value, ok⟩ := andThen_eq_ok.1 ok
        cases ok
        intro place entries
        rw [Array.getElem?_setIfInBounds]
        split
        · split
          · intro same
            rw [Option.some.inj (Option.some.inj same)] at value
            exact Scalar.value_ne_map value
          · exact nofun
        · exact h place entries

/-- What each of the steps keeps is kept by all of them. -/
theorem ScalarsMet.foldlM {α : Type} {step : Building → α → Except Fault Building}
    (keeps : ∀ {b b' : Building} (a : α), b.ScalarsMet → step b a = .ok b' → b'.ScalarsMet)
    (h : b.ScalarsMet) {steps : List α} (ok : steps.foldlM step b = .ok b') : b'.ScalarsMet := by
  induction steps generalizing b with
  | nil =>
    cases ok
    exact h
  | cons a rest ih =>
    obtain ⟨next, first, ok⟩ := andThen_eq_ok.1 ok
    exact ih (keeps a h first) ok

theorem ScalarsMet.meetEntry (h : b.ScalarsMet) {e : NodeId × NodeId}
    (ok : b.meetEntry e = .ok b') : b'.ScalarsMet := by
  obtain ⟨next, first, ok⟩ := andThen_eq_ok.1 ok
  dsimp only at ok
  split at ok
  · cases ok
  · exact (h.meet first).meet ok

theorem ScalarsMet.meetSingle (h : b.ScalarsMet) {id : NodeId} (ok : b.meetSingle id = .ok b') :
    b'.ScalarsMet := by
  unfold Building.meetSingle at ok
  split at ok
  · obtain ⟨next, first, ok⟩ := andThen_eq_ok.1 ok
    exact (h.meet first).meet ok
  · cases ok

theorem ScalarsMet.openCollection (h : b.ScalarsMet) {id : NodeId}
    (ok : b.openCollection id = .ok b') : b'.ScalarsMet := by
  unfold Building.openCollection at ok
  split at ok
  · exact h.foldlM (fun _ h => h.meet) ok
  · exact h.foldlM (fun _ h => h.meetSingle) ok
  · obtain ⟨nodes, -, ok⟩ := andThen_eq_ok.1 ok
    have same : ({ b with nodes } : Building).ScalarsMet := h
    exact same.foldlM (fun _ h => h.meetEntry) ok
  · obtain ⟨nodes, -, ok⟩ := andThen_eq_ok.1 ok
    have same : ({ b with nodes } : Building).ScalarsMet := h
    exact same.foldlM (fun _ h => h.meetEntry) ok
  · cases ok

theorem ScalarsMet.openAll (h : b.ScalarsMet) {fuel position : Nat}
    (ok : openAll fuel position b = .ok b') : b'.ScalarsMet := by
  induction fuel generalizing position b with
  | zero =>
    cases ok
    exact h
  | succ fuel ih =>
    unfold Building.openAll at ok
    split at ok
    · cases ok
      exact h
    · obtain ⟨next, first, ok⟩ := andThen_eq_ok.1 ok
      exact ih (h.openCollection first) ok

/-! ## Mappings -/

/-- Entries that are put in one after another have different keys. -/
theorem wellKeyed_foldl {α : Type} (key value : α → Datum)
    (inside : ∀ a inner, value a = .map inner → Datum.WellKeyed inner) (given : List α)
    {done : List (Datum × Datum)} (h : Datum.WellKeyed done) :
    Datum.WellKeyed (given.foldl (fun done a => Datum.put (key a) (value a) done) done) := by
  induction given generalizing done with
  | nil => exact h
  | cons a rest ih => exact ih (h.put _ _ (inside a))

/-- The keys of each mapping are different, at every depth to which the value is built. -/
theorem ScalarsMet.wellKeyed_value (h : b.ScalarsMet) (fuel : Nat) (around : List NodeId)
    (id : NodeId) {entries : List (Datum × Datum)} (made : b.value fuel around id = .map entries) :
    Datum.WellKeyed entries := by
  induction fuel generalizing around id entries with
  | zero => cases made
  | succ fuel ih =>
    unfold Building.value at made
    dsimp only at made
    split at made
    · cases met : b.scalars[id]? with
      | none =>
        rw [met] at made
        cases made
      | some scalar =>
        cases scalar with
        | none =>
          rw [met] at made
          cases made
        | some v =>
          rw [met] at made
          have same : v = .map entries := made
          exact absurd (same ▸ met) (h id entries)
    · split at made
      · cases made
      · split at made
        · cases made
        · cases made
        · cases made
        · cases made
          exact wellKeyed_foldl _ _ (fun e inner => ih _ _) _ .nil
        · cases made

end Building

/-- The keys of each mapping that a text writes are different. -/
theorem wellKeyed_read {cs : List Char} {entries : List (Datum × Datum)}
    (h : read cs = .ok (.map entries)) : Datum.WellKeyed entries := by
  unfold read at h
  split at h
  · cases h
  · cases h
  · next d _ =>
    unfold Document.value at h
    simp only [andThen_eq_ok] at h
    obtain ⟨start, first, b, opened, made⟩ := h
    have empty : ({ nodes := d.nodes, scalars := Array.replicate d.nodes.size none } :
        Building).ScalarsMet := by
      intro id entries
      rw [Array.getElem?_replicate]
      split <;> exact nofun
    exact ((empty.meet first).openAll opened).wellKeyed_value _ _ _ (Except.ok.inj made)

end CodeOutline.Yaml
