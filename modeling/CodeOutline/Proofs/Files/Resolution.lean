import CodeOutline.Proofs.Files.Ways

/-!
# Canonical names

`Follows` says where a path ends that is read component by component: `..` goes back from the place that
has been reached, and a link is followed to its own end before the path goes on. Nothing there speaks of
links that are being followed already. `resolveFrom` keeps those, and stops where it meets one again;
where a path has an end it meets none (`resolveFrom_eq_ok`), since following a link takes more steps than
anything on the way through it.
-/

namespace CodeOutline.Files.Disk

variable {d : Disk} {opened : List Place} {done goal goal' reached : Place} {part : String}
  {front rest : List String} {steps steps' : Nat}

/-- A path that is read from a place on ends at a goal, in so many steps. -/
inductive FollowsIn (d : Disk) : (steps : Nat) → (done : Place) → (rest : List String) →
    (goal : Place) → Prop where
  | done (done : Place) : FollowsIn d 0 done [] done
  | up {steps : Nat} {done goal : Place} {rest : List String}
      (more : FollowsIn d steps done.dropLast rest goal) : FollowsIn d (steps + 1) done (".." :: rest) goal
  | down {steps : Nat} {done goal : Place} {part : String} {rest : List String} (hpart : part ≠ "..")
      (noLink : d.target? (done ++ [part]) = none)
      (more : FollowsIn d steps (done ++ [part]) rest goal) :
      FollowsIn d (steps + 1) done (part :: rest) goal
  | link {within steps : Nat} {done reached goal : Place} {part target : String} {rest : List String}
      (hpart : part ≠ "..") (found : d.target? (done ++ [part]) = some target)
      (through : FollowsIn d within (linkStart done target) (componentsOf target) reached)
      (more : FollowsIn d steps reached rest goal) :
      FollowsIn d (within + steps + 1) done (part :: rest) goal

/-- A path that is read from a place on ends at a goal. -/
def Follows (d : Disk) (done : Place) (rest : List String) (goal : Place) : Prop :=
  ∃ steps, d.FollowsIn steps done rest goal

theorem FollowsIn.unique (h : d.FollowsIn steps done rest goal)
    (h' : d.FollowsIn steps' done rest goal') : steps = steps' ∧ goal = goal' := by
  induction h generalizing steps' goal' with
  | done =>
    cases h'
    exact ⟨rfl, rfl⟩
  | up _ ih =>
    cases h' with
    | up more =>
      obtain ⟨rfl, rfl⟩ := ih more
      exact ⟨rfl, rfl⟩
    | down hpart => exact absurd rfl hpart
    | link hpart => exact absurd rfl hpart
  | down hpart noLink _ ih =>
    cases h' with
    | up => exact absurd rfl hpart
    | down _ _ more =>
      obtain ⟨rfl, rfl⟩ := ih more
      exact ⟨rfl, rfl⟩
    | link _ found => cases noLink.symm.trans found
  | link hpart found _ _ ihThrough ih =>
    cases h' with
    | up => exact absurd rfl hpart
    | down _ noLink => cases noLink.symm.trans found
    | link _ found' through more =>
      cases found.symm.trans found'
      obtain ⟨rfl, rfl⟩ := ihThrough through
      obtain ⟨rfl, rfl⟩ := ih more
      exact ⟨rfl, rfl⟩

theorem FollowsIn.append (h : d.FollowsIn steps done front reached)
    (h' : d.FollowsIn steps' reached rest goal) :
    d.FollowsIn (steps + steps') done (front ++ rest) goal := by
  induction h with
  | done => rwa [Nat.zero_add]
  | up _ ih =>
    rw [Nat.add_right_comm]
    exact .up (ih h')
  | down hpart noLink _ ih =>
    rw [Nat.add_right_comm]
    exact .down hpart noLink (ih h')
  | link hpart found through _ _ ih =>
    rw [Nat.add_right_comm, Nat.add_assoc _ _ steps']
    exact .link hpart found through (ih h')

namespace Follows

theorem unique (h : d.Follows done rest goal) (h' : d.Follows done rest goal') : goal = goal' := by
  obtain ⟨_, h⟩ := h
  obtain ⟨_, h'⟩ := h'
  exact (h.unique h').2

/-- The parts of a path are followed one after the other. -/
theorem append (h : d.Follows done front reached) (h' : d.Follows reached rest goal) :
    d.Follows done (front ++ rest) goal := by
  obtain ⟨_, h⟩ := h
  obtain ⟨_, h'⟩ := h'
  exact ⟨_, h.append h'⟩

end Follows

/-! ## Resolving -/

/-- Following the link at a place takes no fewer steps. -/
def TakesSteps (d : Disk) (steps : Nat) (place : Place) : Prop :=
  ∀ directory part target within reached, place = directory ++ [part] →
    d.target? place = some target →
      d.FollowsIn within (linkStart directory target) (componentsOf target) reached → steps ≤ within

theorem TakesSteps.mono {place : Place} (h : d.TakesSteps steps place) (less : steps' ≤ steps) :
    d.TakesSteps steps' place :=
  fun _ _ _ _ _ shape found follows => Nat.le_trans less (h _ _ _ _ _ shape found follows)

/-- One step of resolving. -/
theorem resolveFrom_cons (opened : List Place) (done : Place) (part : String) (rest : List String) :
    d.resolveFrom opened done (part :: rest) =
      if part = ".." then d.resolveFrom opened done.dropLast rest
      else
        match d.target? (done ++ [part]) with
        | none => d.resolveFrom opened (done ++ [part]) rest
        | some target =>
          if opened.contains (done ++ [part]) then .error (done ++ [part], rest)
          else
            match d.resolveFrom ((done ++ [part]) :: opened) (linkStart done target)
                (componentsOf target) with
            | .ok reached => d.resolveFrom opened reached rest
            | .error (reached, left) => .error (attach target reached left, rest) := by
  rw [resolveFrom]
  dsimp only [linkStart, dite_eq_ite]
  split
  · rfl
  split
  · next free => rw [free]
  · next link => exact link ▸ rfl

/-- A path that has an end is resolved to it, as long as all the links that are being followed take more
steps than are left. -/
theorem FollowsIn.resolveFrom (h : d.FollowsIn steps done rest goal)
    (outer : ∀ place ∈ opened, d.TakesSteps steps place) :
    d.resolveFrom opened done rest = .ok goal := by
  induction h generalizing opened with
  | done => rw [Disk.resolveFrom]
  | up _ ih =>
    rw [resolveFrom_cons, if_pos rfl]
    exact ih fun place mem => (outer place mem).mono (Nat.le_succ _)
  | down hpart noLink _ ih =>
    rw [resolveFrom_cons, if_neg hpart, noLink]
    exact ih fun place mem => (outer place mem).mono (Nat.le_succ _)
  | @link within steps done reached goal part target rest hpart found through _ ihThrough ih =>
    -- a link that is being followed takes more steps than the one that is met here
    have fresh : done ++ [part] ∉ opened := by
      intro mem
      have more := outer _ mem done part target within reached rfl found through
      omega
    have itself : d.TakesSteps within (done ++ [part]) := by
      intro directory part' target' within' reached' shape found' follows
      obtain ⟨rfl, same⟩ := List.append_inj' shape rfl
      cases found.symm.trans found'
      exact Nat.le_of_eq (through.unique follows).1
    have inner : ∀ place ∈ (done ++ [part]) :: opened, d.TakesSteps within place :=
      List.forall_mem_cons.2 ⟨itself, fun place mem => (outer place mem).mono (by omega)⟩
    rw [resolveFrom_cons, if_neg hpart, found]
    simp only [List.contains_iff_mem, if_neg fresh, ihThrough inner]
    exact ih fun place mem => (outer place mem).mono (by omega)

theorem follows_of_resolveFrom (ok : d.resolveFrom opened done rest = .ok goal) :
    d.Follows done rest goal := by
  fun_induction d.resolveFrom opened done rest generalizing goal with
  | case1 =>
    cases ok
    exact ⟨0, .done _⟩
  | case2 _ _ _ ih =>
    obtain ⟨steps, more⟩ := ih ok
    exact ⟨_, .up more⟩
  | case3 _ _ _ _ hpart free ih =>
    obtain ⟨steps, more⟩ := ih ok
    exact ⟨_, .down hpart free more⟩
  | case4 => cases ok
  | case5 _ _ _ _ hpart target link _ reached through ihThrough ih =>
    obtain ⟨within, inner⟩ := ihThrough through
    obtain ⟨steps, more⟩ := ih ok
    exact ⟨_, .link hpart link inner more⟩
  | case6 => cases ok

/-- A path is resolved where it ends. -/
theorem resolveFrom_eq_ok : d.resolveFrom [] done rest = .ok goal ↔ d.Follows done rest goal :=
  ⟨follows_of_resolveFrom, fun ⟨_, follows⟩ => follows.resolveFrom nofun⟩

/-! ## Links without a loop -/

/-- Every link leads to an end. -/
def NoLoops (d : Disk) : Prop :=
  ∀ directory part target, d.target? (directory ++ [part]) = some target →
    ∃ goal, d.Follows (linkStart directory target) (componentsOf target) goal

/-- Where links form no loop every path has an end. -/
theorem NoLoops.follows (h : d.NoLoops) (done : Place) (rest : List String) :
    ∃ goal, d.Follows done rest goal := by
  induction rest generalizing done with
  | nil => exact ⟨done, 0, .done done⟩
  | cons part rest ih =>
    by_cases hpart : part = ".."
    · subst hpart
      obtain ⟨goal, steps, more⟩ := ih done.dropLast
      exact ⟨goal, _, .up more⟩
    · cases found : d.target? (done ++ [part]) with
      | none =>
        obtain ⟨goal, steps, more⟩ := ih (done ++ [part])
        exact ⟨goal, _, .down hpart found more⟩
      | some target =>
        obtain ⟨reached, within, through⟩ := h done part target found
        obtain ⟨goal, steps, more⟩ := ih reached
        exact ⟨goal, _, .link hpart found through more⟩

theorem Follows.resolve {place : Place} (h : d.Follows [] place goal)
    (noNull : ∀ part ∈ place, '\x00' ∉ part.toList) : d.resolve place = .ok goal := by
  have none : ¬place.any (fun part => part.toList.contains '\x00') := by
    simp only [List.any_eq_true, List.contains_iff_mem]
    rintro ⟨part, mem, null⟩
    exact noNull part mem null
  rw [Disk.resolve, if_neg none, resolveFrom_eq_ok.2 h]

end CodeOutline.Files.Disk
