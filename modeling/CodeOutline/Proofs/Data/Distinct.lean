import Mathlib.Data.List.Nodup

/-!
# Lists without repetitions
-/

namespace CodeOutline

variable {α : Type} [DecidableEq α]

theorem eraseDups_of_nodup {l : List α} (h : l.Nodup) : l.eraseDups = l := by
  induction l with
  | nil => rfl
  | cons a rest ih =>
    obtain ⟨ha, hrest⟩ := List.nodup_cons.1 h
    have others : rest.filter (fun b => !b == a) = rest :=
      List.filter_eq_self.2 fun b hb => by simpa using fun e : b = a => ha (e ▸ hb)
    rw [List.eraseDups_cons, others, ih hrest]

theorem nodup_eraseDups (l : List α) : l.eraseDups.Nodup := by
  induction hn : l.length using Nat.strongRecOn generalizing l with
  | ind n ih =>
    cases l with
    | nil => exact List.nodup_nil
    | cons a rest =>
      have shorter : (rest.filter fun b => !b == a).length < n := by
        rw [← hn, List.length_cons]
        exact Nat.lt_succ_of_le (List.length_filter_le _ _)
      rw [List.eraseDups_cons, List.nodup_cons]
      exact ⟨by simp, ih _ shorter _ rfl⟩

/-- What is new in a list without repetitions is added at the end. -/
theorem eraseDups_append_of_nodup (l : List α) {m : List α} (h : m.Nodup) :
    (l ++ m).eraseDups = l.eraseDups ++ m.filter (· ∉ l) := by
  have new : m.removeAll l = m.filter (· ∉ l) := by
    unfold List.removeAll
    exact List.filter_congr fun a _ => by simp
  rw [List.eraseDups_append, new, eraseDups_of_nodup (h.filter _)]

end CodeOutline
