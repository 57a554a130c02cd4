import CodeOutline.Proofs.Files.Entries

/-!
# Ways to a place

What an operation finds at the end of a path depends on the directories and the links of the disk, and
on no file. `Leads` says step by step how a path is followed to its end; a disk that keeps directories
and links (`KeepsWays`) leads every path to where it led before. Where no link is on the way, a path
leads to the place that it writes (`Leads.eq_of_noLinks`).
-/

namespace CodeOutline.Files.Disk

variable {d d' : Disk} {p : Path} {opened : List Place} {done goal : Place} {part : String}
  {rest : List String}

/-- Components are looked for there. -/
def IsWay (d : Disk) (place : Place) : Prop :=
  d.entry? place = some .directory ∨ ∃ target, d.entry? place = some (.link target)

/-- Where a link leads is read from the root on, or from the directory that it is in. -/
def linkStart (directory : Place) (target : String) : Place :=
  if isRooted target then [] else directory

/-- A path leads from a place to a goal, with some links being followed already. -/
inductive Leads (d : Disk) : (opened : List Place) → (done : Place) → (rest : List String) →
    (goal : Place) → Prop where
  | done (opened : List Place) (done : Place) : Leads d opened done [] done
  | up {opened : List Place} {done goal : Place} {rest : List String} (way : d.IsWay done)
      (more : Leads d opened done.dropLast rest goal) : Leads d opened done (".." :: rest) goal
  | down {opened : List Place} {done goal : Place} {part : String} {rest : List String}
      (way : d.IsWay done) (hpart : part ≠ "..") (short : part.utf8ByteSize ≤ componentLimit)
      (free : d.target? (done ++ [part]) = none)
      (more : Leads d opened (done ++ [part]) rest goal) : Leads d opened done (part :: rest) goal
  | link {opened : List Place} {done reached goal : Place} {part target : String}
      {rest : List String} (way : d.IsWay done) (hpart : part ≠ "..")
      (short : part.utf8ByteSize ≤ componentLimit)
      (found : d.target? (done ++ [part]) = some target) (fresh : done ++ [part] ∉ opened)
      (through : Leads d ((done ++ [part]) :: opened) (linkStart done target) (componentsOf target)
        reached)
      (more : Leads d opened reached rest goal) : Leads d opened done (part :: rest) goal

/-- One step of following a path. -/
theorem locateFrom_of_isWay (way : d.IsWay done) (part : String) (rest : List String) :
    d.locateFrom opened done (part :: rest) =
      if part = ".." then d.locateFrom opened done.dropLast rest
      else if componentLimit < part.utf8ByteSize then .error .nameTooLong
      else
        match d.target? (done ++ [part]) with
        | none => d.locateFrom opened (done ++ [part]) rest
        | some target =>
          if opened.contains (done ++ [part]) then .error .loop
          else
            match d.locateFrom ((done ++ [part]) :: opened) (linkStart done target)
                (componentsOf target) with
            | .ok reached => d.locateFrom opened reached rest
            | .error errno => .error errno := by
  rw [locateFrom]
  rcases way with found | ⟨target, found⟩
  all_goals
    rw [found]
    dsimp only [linkStart, dite_eq_ite]
    split
    · rfl
    split
    · rfl
    split
    · next free => rw [free]
    · next link => exact link ▸ rfl

theorem isWay_of_ne_file {entry : Entry} (found : d.entry? done = some entry)
    (noFile : ∀ text, entry = .file text → False) : d.IsWay done := by
  cases entry with
  | file text => exact absurd rfl (noFile text)
  | directory => exact .inl found
  | link target => exact .inr ⟨target, found⟩

/-- A path is located where it leads. -/
theorem locateFrom_eq_ok : d.locateFrom opened done rest = .ok goal ↔ d.Leads opened done rest goal := by
  constructor
  · intro ok
    fun_induction d.locateFrom opened done rest generalizing goal with
    | case1 =>
      cases ok
      exact .done _ _
    | case2 | case3 | case5 | case7 | case9 => cases ok
    | case4 _ _ _ _ noFile found ih => exact .up (isWay_of_ne_file found noFile) (ih ok)
    | case6 _ _ _ _ _ noFile found hpart short free ih =>
      exact .down (isWay_of_ne_file found noFile) hpart (Nat.not_lt.1 short) free (ih ok)
    | case8 _ _ _ _ _ noFile found hpart short target link fresh reached through ihThrough ih =>
      rw [List.contains_iff_mem] at fresh
      exact .link (isWay_of_ne_file found noFile) hpart (Nat.not_lt.1 short) link fresh
        (ihThrough through) (ih ok)
  · intro leads
    induction leads with
    | done => rw [locateFrom]
    | up way _ ih => rw [locateFrom_of_isWay way, if_pos rfl, ih]
    | down way hpart short free _ ih =>
      rw [locateFrom_of_isWay way, if_neg hpart, if_neg (Nat.not_lt.2 short), free]
      exact ih
    | link way hpart short found fresh _ _ ihThrough ih =>
      rw [locateFrom_of_isWay way, if_neg hpart, if_neg (Nat.not_lt.2 short), found]
      simp only [List.contains_iff_mem, if_neg fresh, ihThrough]
      exact ih

/-- The parts of a path lead one after the other. -/
theorem Leads.append {front back : List String} {reached : Place}
    (h : d.Leads opened done front reached) (h' : d.Leads opened reached back goal) :
    d.Leads opened done (front ++ back) goal := by
  induction h with
  | done => exact h'
  | up way _ ih => exact .up way (ih h')
  | down way hpart short free _ ih => exact .down way hpart short free (ih h')
  | link way hpart short found fresh through _ _ ih =>
    exact .link way hpart short found fresh through (ih h')

/-- Without links on the way, and without `..`, a path leads to the place that it writes. -/
theorem Leads.eq_of_noLinks (h : d.Leads opened done rest goal) (down : ".." ∉ rest)
    (noLinks : ∀ front, front <+: rest → d.target? (done ++ front) = none) : goal = done ++ rest := by
  induction h with
  | done => exact (List.append_nil _).symm
  | up => exact absurd List.mem_cons_self down
  | @down opened done goal part rest _ _ _ _ _ ih =>
    have later := ih (List.not_mem_of_not_mem_cons down) fun front hfront => by
      have next := noLinks (part :: front) (List.cons_prefix_cons.2 ⟨rfl, hfront⟩)
      rwa [← List.append_cons] at *
    rw [later, ← List.append_cons]
  | @link opened done reached goal part target rest _ _ _ found =>
    have first := noLinks [part] (List.cons_prefix_cons.2 ⟨rfl, List.nil_prefix⟩)
    cases first.symm.trans found

/-! ## Disks with the same ways -/

/-- Every directory is still one, and the links are the same. -/
structure KeepsWays (d d' : Disk) : Prop where
  cwd : d'.cwd = d.cwd
  directories : ∀ place, d.entry? place = some .directory → d'.entry? place = some .directory
  links : ∀ place, d'.target? place = d.target? place

namespace KeepsWays

theorem isWay (h : d.KeepsWays d') (way : d.IsWay done) : d'.IsWay done := by
  rcases way with found | ⟨target, found⟩
  · exact .inl (h.directories done found)
  · refine .inr ⟨target, target?_eq_some.1 ?_⟩
    rw [h.links, target?_eq_some.2 found]

theorem leads (h : d.KeepsWays d') (leads : d.Leads opened done rest goal) :
    d'.Leads opened done rest goal := by
  induction leads with
  | done => exact .done _ _
  | up way _ ih => exact .up (h.isWay way) ih
  | down way hpart short free _ ih =>
    exact .down (h.isWay way) hpart short (by rw [h.links, free]) ih
  | link way hpart short found fresh _ _ ihThrough ih =>
    exact .link (h.isWay way) hpart short (by rw [h.links, found]) fresh ihThrough ih

end KeepsWays

/-! ## Locating -/

theorem locate_eq_ok :
    d.locate p = .ok goal ↔
      p.text.utf8ByteSize ≤ pathLimit ∧ d.Leads [] [] (p.placeFrom d.cwd) goal := by
  unfold locate
  split
  · next long => simp [Nat.not_le.2 long]
  · next short => rw [locateFrom_eq_ok, and_iff_right (Nat.not_lt.1 short)]

theorem locateDirectory_eq_ok :
    d.locateDirectory p = .ok goal ↔ d.locate p = .ok goal ∧ d.entry? goal = some .directory := by
  unfold locateDirectory
  cases d.locate p with
  | error errno => simp
  | ok place =>
    dsimp only
    constructor
    · intro ok
      split at ok
      · next found =>
        cases ok
        exact ⟨rfl, found⟩
      · cases ok
      · cases ok
    · rintro ⟨same, found⟩
      cases same
      rw [found]

namespace KeepsWays

theorem locate (h : d.KeepsWays d') (ok : d.locate p = .ok goal) : d'.locate p = .ok goal := by
  obtain ⟨short, leads⟩ := locate_eq_ok.1 ok
  rw [locate_eq_ok, h.cwd]
  exact ⟨short, h.leads leads⟩

theorem locateDirectory (h : d.KeepsWays d') (ok : d.locateDirectory p = .ok goal) :
    d'.locateDirectory p = .ok goal := by
  obtain ⟨located, found⟩ := locateDirectory_eq_ok.1 ok
  exact locateDirectory_eq_ok.2 ⟨h.locate located, h.directories goal found⟩

end KeepsWays

/-! ## Reading -/

theorem read?_eq_some {text : String} :
    d.read? p = some text ↔ ∃ goal, d.locate p = .ok goal ∧ d.entry? goal = some (.file text) := by
  unfold read?
  cases d.locate p with
  | error errno => simp
  | ok goal =>
    simp only [Except.ok.injEq, exists_eq_left']
    split <;> simp_all

/-- A file that is still there can be read as long as the ways stay. -/
theorem KeepsWays.read? {text : String} (h : d.KeepsWays d') (located : d.locate p = .ok goal)
    (found : d'.entry? goal = some (.file text)) : d'.read? p = some text :=
  read?_eq_some.2 ⟨goal, h.locate located, found⟩

end CodeOutline.Files.Disk
