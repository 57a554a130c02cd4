import CodeOutline.Files.Writer
import Mathlib.Data.List.Basic

/-!
# Entries of a disk

What is at each place after something has been put there or taken away. A file that is put where nothing
has been and taken away again leaves the disk as it was (`remove_put`), also if another file has been
put elsewhere in between (`remove_put_put`).
-/

namespace CodeOutline.Files.Disk

variable {d : Disk} {place goal q : Place} {entry : Entry}

@[simp]
theorem cwd_put (d : Disk) (place : Place) (entry : Entry) : (d.put place entry).cwd = d.cwd := by
  unfold put
  split <;> rfl

/-! ## Look-ups -/

theorem find?_replaced (place q : Place) (entry : Entry) (entries : List (Place × Entry)) :
    (entries.map fun e => if e.1 = place then (place, entry) else e).find? (·.1 = q) =
      if q = place then (entries.find? (·.1 = place)).map fun _ => (place, entry)
      else entries.find? (·.1 = q) := by
  induction entries with
  | nil => simp
  | cons e rest ih =>
    rw [List.map_cons, List.find?_cons, List.find?_cons, List.find?_cons, ih]
    by_cases he : e.1 = place
    · by_cases hq : q = place
      · simp [he, hq]
      · simp [he, hq, Ne.symm hq]
    · by_cases hq : q = place
      · simp [he, hq]
      · simp [he, hq]

theorem lookup_put (d : Disk) (h : place ≠ []) (entry : Entry) (q : Place) :
    entry? (d.put place entry) q = if q = place then some entry else d.entry? q := by
  unfold entry?
  by_cases root : q = []
  · rw [if_pos root, if_pos root, if_neg (root ▸ h.symm)]
  rw [if_neg root, if_neg root]
  unfold put
  split
  · next there =>
    dsimp only
    rw [find?_replaced]
    by_cases hq : q = place
    · obtain ⟨e, he⟩ := Option.isSome_iff_exists.1
        (List.find?_isSome.2 (List.any_eq_true.1 there))
      simp [hq, he]
    · simp [hq]
  · next free =>
    rw [Bool.not_eq_true, List.any_eq_false] at free
    dsimp only
    rw [List.find?_append, List.find?_singleton]
    by_cases hq : q = place
    · rw [hq, List.find?_eq_none.2 free]
      simp
    · simp [hq, Ne.symm hq]

theorem ne_nil_of_free (free : d.entry? place ≠ some .directory) : place ≠ [] := by
  rintro rfl
  exact free rfl

theorem mem_entries (below : place ≠ []) (found : d.entry? place = some entry) :
    (place, entry) ∈ d.entries := by
  unfold entry? at found
  rw [if_neg below, Option.map_eq_some_iff] at found
  obtain ⟨e, first, rfl⟩ := found
  have here : e.1 = place := by simpa using List.find?_some first
  rw [← here]
  exact List.mem_of_find?_eq_some first

theorem target?_eq_some {target : String} :
    d.target? place = some target ↔ d.entry? place = some (.link target) := by
  unfold target?
  split
  · next found => simp [found]
  · next other =>
    simp only [reduceCtorEq, false_iff]
    exact fun found => other _ found

/-! ## Taking away what was put -/

/-- Where nothing is, no entry has the place. -/
theorem notMem_of_free (free : d.entry? place = none) : ∀ e ∈ d.entries, e.1 ≠ place := by
  unfold entry? at free
  split at free
  · cases free
  · intro e mem same
    have none := List.find?_eq_none.1 (Option.map_eq_none_iff.1 free) e mem
    simp [same] at none

theorem put_of_free (free : d.entry? place = none) (entry : Entry) :
    d.put place entry = { d with entries := d.entries ++ [(place, entry)] } := by
  have absent : ¬(d.entries.any (·.1 = place)) = true := by
    rw [Bool.not_eq_true, List.any_eq_false]
    intro e mem
    simpa using notMem_of_free free e mem
  rw [put, if_neg absent]

/-- What is put last counts. -/
theorem put_put (free : d.entry? place = none) (entry entry' : Entry) :
    (d.put place entry).put place entry' = d.put place entry' := by
  have others : d.entries.map (fun e => if e.1 = place then (place, entry') else e) = d.entries :=
    (List.map_congr_left fun e mem => if_neg (notMem_of_free free e mem)).trans (List.map_id' _)
  rw [put_of_free free, put_of_free free, put, if_pos (by simp)]
  simp [others]

theorem remove_put (free : d.entry? place = none) (entry : Entry) :
    (d.put place entry).remove place = d := by
  have others : d.entries.filter (·.1 ≠ place) = d.entries :=
    List.filter_eq_self.2 fun e mem => by simpa using notMem_of_free free e mem
  rw [put_of_free free, remove, List.filter_append, others]
  simp

/-- Putting something elsewhere and taking away what is at a place can be done in either order. -/
theorem remove_put_comm (h : goal ≠ place) (d : Disk) (entry : Entry) :
    (d.put goal entry).remove place = (d.remove place).put goal entry := by
  have still : (d.remove place).entries.any (·.1 = goal) = d.entries.any (·.1 = goal) := by
    rw [remove, Bool.eq_iff_iff, List.any_eq_true, List.any_eq_true]
    constructor
    · rintro ⟨e, mem, same⟩
      exact ⟨e, (List.mem_filter.1 mem).1, same⟩
    · rintro ⟨e, mem, same⟩
      refine ⟨e, List.mem_filter.2 ⟨mem, ?_⟩, same⟩
      simpa [of_decide_eq_true same] using h
  unfold put
  rw [still]
  split
  · have key (e : Place × Entry) : (if e.1 = goal then (goal, entry) else e).1 = e.1 := by
      split
      · next same => exact same.symm
      · rfl
    simp only [remove, List.filter_map, Function.comp_def, key]
  · simp [remove, List.filter_append, h]

/-- A file that was put where nothing has been can be taken away after another one has come. -/
theorem remove_put_put (free : d.entry? place = none) (h : goal ≠ place) (entry entry' : Entry) :
    ((d.put place entry).put goal entry').remove place = d.put goal entry' := by
  rw [remove_put_comm h, remove_put free]

end CodeOutline.Files.Disk
