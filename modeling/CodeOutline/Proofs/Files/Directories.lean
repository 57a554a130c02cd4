import CodeOutline.Proofs.Files.Ways

/-!
# New directories

Making directories leaves everything that is there (`Grown`), and every path still leads where it led
before (`Grown.keepsWays`). What is new are directories on the way along the path that was asked for:
some initial part of the path leads to each of them (`GrownToward`).
-/

namespace CodeOutline.Files.Disk

variable {d d' d'' : Disk} {place : Place} {p : Path} {entry : Entry}

/-- The disk with more directories, where nothing has been before. -/
structure Grown (d d' : Disk) : Prop where
  cwd : d'.cwd = d.cwd
  entries : ∀ place, d'.entry? place = d.entry? place ∨
    d.entry? place = none ∧ d'.entry? place = some .directory

namespace Grown

theorem refl (d : Disk) : d.Grown d := ⟨rfl, fun _ => .inl rfl⟩

theorem trans (h : d.Grown d') (h' : d'.Grown d'') : d.Grown d'' := by
  refine ⟨h'.cwd.trans h.cwd, fun place => ?_⟩
  rcases h.entries place with e | ⟨free, made⟩
  · rw [← e]
    exact h'.entries place
  · rcases h'.entries place with e' | ⟨free', -⟩
    · exact .inr ⟨free, e'.trans made⟩
    · cases made.symm.trans free'

/-- What is there stays. -/
theorem kept (h : d.Grown d') (found : d.entry? place = some entry) :
    d'.entry? place = some entry := by
  rcases h.entries place with e | ⟨free, -⟩
  · exact e.trans found
  · cases found.symm.trans free

/-- Only directories are new. -/
theorem of_kept (h : d.Grown d') (other : entry ≠ .directory)
    (found : d'.entry? place = some entry) : d.entry? place = some entry := by
  rcases h.entries place with e | ⟨-, made⟩
  · exact e.symm.trans found
  · exact absurd (Option.some.inj (found.symm.trans made)) other

theorem keepsWays (h : d.Grown d') : d.KeepsWays d' where
  cwd := h.cwd
  directories _ := h.kept
  links place := by
    apply Option.ext
    intro target
    rw [target?_eq_some, target?_eq_some]
    exact ⟨h.of_kept (by simp), h.kept⟩

theorem read? {text : String} (h : d.Grown d') (read : d.read? p = some text) :
    d'.read? p = some text := by
  obtain ⟨goal, located, found⟩ := read?_eq_some.1 read
  exact h.keepsWays.read? located (h.kept found)

end Grown

theorem grown_put (free : d.entry? place = none) : d.Grown (d.put place .directory) := by
  have below : place ≠ [] := by
    rintro rfl
    cases free
  refine ⟨cwd_put .., fun q => ?_⟩
  rw [lookup_put d below]
  split
  · next e => exact .inr ⟨e ▸ free, rfl⟩
  · exact .inl rfl

/-! ## Directories on the way -/

/-- The disk with more directories, all of them on the way along a path. -/
structure GrownToward (d : Disk) (p : Path) (d' : Disk) : Prop where
  grown : d.Grown d'
  toward : ∀ place, d'.entry? place ≠ d.entry? place →
    ∃ front, front <+: p.parts ∧ d'.locate ⟨p.root, front⟩ = .ok place

namespace GrownToward

theorem refl (d : Disk) (p : Path) : d.GrownToward p d :=
  ⟨.refl d, fun _ changed => absurd rfl changed⟩

theorem trans (h : d.GrownToward p d') (h' : d'.GrownToward p d'') : d.GrownToward p d'' := by
  refine ⟨h.grown.trans h'.grown, fun place changed => ?_⟩
  by_cases first : d'.entry? place = d.entry? place
  · rw [← first] at changed
    exact h'.toward place changed
  · obtain ⟨front, hfront, located⟩ := h.toward place first
    exact ⟨front, hfront, h'.grown.keepsWays.locate located⟩

/-- The way along a path begins with that along its parent. -/
theorem of_parent (h : d.GrownToward p.parent d') : d.GrownToward p d' := by
  refine ⟨h.grown, fun place changed => ?_⟩
  obtain ⟨front, hfront, located⟩ := h.toward place changed
  exact ⟨front, hfront.trans (List.dropLast_prefix p.parts), located⟩

end GrownToward

theorem parts_eq_of_not_isTraversal (h : ¬p.isTraversal) :
    p.parts = p.parent.parts ++ [p.name] ∧ p.name ≠ ".." := by
  simp only [Path.isTraversal, Bool.or_eq_true, List.isEmpty_iff, decide_eq_true_eq, not_or] at h
  refine ⟨?_, h.2⟩
  rw [Path.parent, Path.name, List.getLastD_eq_getLast?, List.getLast?_eq_some_getLast h.1]
  exact (List.dropLast_append_getLast h.1).symm

/-- What is in a directory is located below it. -/
theorem locate_of_parent (h : ¬p.isTraversal) (fits : p.text.utf8ByteSize ≤ pathLimit)
    {directory : Place} (within : d.locateDirectory p.parent = .ok directory)
    (short : p.name.utf8ByteSize ≤ componentLimit)
    (free : d.target? (directory ++ [p.name]) = none) :
    d.locate p = .ok (directory ++ [p.name]) := by
  obtain ⟨parts, down⟩ := parts_eq_of_not_isTraversal h
  obtain ⟨located, found⟩ := locateDirectory_eq_ok.1 within
  have whole : p.placeFrom d.cwd = p.parent.placeFrom d.cwd ++ [p.name] := by
    unfold Path.placeFrom
    change (if p.isAbsolute then _ else _) = (if p.isAbsolute then _ else _) ++ _
    split
    · exact parts
    · rw [List.append_assoc, ← parts]
  rw [locate_eq_ok, whole]
  exact ⟨fits, (locate_eq_ok.1 located).2.append (.down (.inl found) down short free (.done _ _))⟩

/-- A directory is made in the one above it, where nothing is. -/
theorem makeDirectory_toward (ok : d.makeDirectory p = .ok d') : d.GrownToward p d' := by
  unfold makeDirectory at ok
  split at ok
  · split at ok <;> cases ok
  next proper =>
  split at ok
  · cases ok
  next fits =>
  split at ok
  · cases ok
  next parent within =>
  split at ok
  · cases ok
  next short =>
  split at ok
  · cases ok
  next there =>
  cases ok
  have free : d.entry? (parent ++ [p.name]) = none := Option.not_isSome_iff_eq_none.1 there
  have grown := grown_put free
  refine ⟨grown, fun place changed => ⟨p.parts, List.prefix_rfl, ?_⟩⟩
  have here : place = parent ++ [p.name] := by
    by_contra other
    rw [lookup_put d (by simp), if_neg other] at changed
    exact changed rfl
  have noLink : target? (d.put (parent ++ [p.name]) .directory) (parent ++ [p.name]) = none := by
    rw [grown.keepsWays.links, target?, free]
  rw [here]
  exact locate_of_parent proper (Nat.not_lt.1 fits) (grown.keepsWays.locateDirectory within)
    (Nat.not_lt.1 short) noLink

theorem ensureDirectory_toward (d : Disk) (p : Path) : d.GrownToward p (d.ensureDirectory p).2 := by
  unfold ensureDirectory
  split
  · exact .refl d p
  split
  · next made => exact makeDirectory_toward made
  · split <;> exact .refl d p

theorem ensureDirectories_toward (d : Disk) (p : Path) :
    d.GrownToward p (d.ensureDirectories p).2 := by
  fun_induction d.ensureDirectories p with
  | case1 d p fault d' tried missing d'' above ih =>
    have tries := ensureDirectory_toward d p
    rw [tried] at tries
    rw [above] at ih
    exact tries.trans (ih.of_parent.trans (ensureDirectory_toward d'' p))
  | case2 d p fault d' tried missing failed ih =>
    have tries := ensureDirectory_toward d p
    rw [tried] at tries
    exact tries.trans ih.of_parent
  | case3 d p fault d' tried =>
    have tries := ensureDirectory_toward d p
    rw [tried] at tries
    exact tries
  | case4 d p => exact ensureDirectory_toward d p

end CodeOutline.Files.Disk
