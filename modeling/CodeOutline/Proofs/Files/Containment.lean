import CodeOutline.Proofs.Files.Report
import CodeOutline.Proofs.Files.Resolution
import CodeOutline.Proofs.Files.Succession
import CodeOutline.Proofs.Text.Pieces

/-!
# Output paths inside their base

An output path is judged by where it leads, with every link on the way followed. In a directory tree
whose links form no loop that is one place, and the path is accepted exactly if the place is inside the
base (`Judges`). No link and no `..` is left in an accepted place (`Canonical`), so what is written there
later goes along its components and stays inside (`Canonical.writeUnless_outside`).
-/

namespace CodeOutline.Files

open CodeOutline.Text

/-- A component that an operation takes. -/
structure IsUsable (part : String) : Prop extends IsComponent part where
  noNull : '\x00' ∉ part.toList

theorem isUsable_of_mem_componentsOf {s part : String} (noNull : '\x00' ∉ s.toList)
    (h : part ∈ componentsOf s) : IsUsable part where
  toIsComponent := isComponent_of_mem_componentsOf h
  noNull null := noNull (mem_of_mem_pieces (List.mem_filter.1 h).1 null)

namespace Disk

variable {d : Disk} {place base done goal front q : Place} {rest : List String} {steps : Nat}

/-- Directories with what is in them, and links that form no loop. -/
structure Tree (d : Disk) : Prop where
  parents : ∀ place part entry, d.entry? (place ++ [part]) = some entry →
    d.entry? place = some .directory
  noLoops : d.NoLoops
  noNull : ∀ place target, d.target? place = some target → '\x00' ∉ target.toList

/-- Whatever is above a directory is one. -/
theorem Tree.directory_of_prefix (h : d.Tree) (found : d.entry? place = some .directory)
    (above : front <+: place) : d.entry? front = some .directory := by
  induction place using List.reverseRecOn with
  | nil => rwa [List.prefix_nil.1 above]
  | append_singleton place part ih =>
    rcases List.prefix_concat_iff.1 above with rfl | above
    · exact found
    · exact ih (h.parents place part _ found) above

/-! ## Canonical places -/

/-- A place that is written without `..` and without going through a link. -/
structure Canonical (d : Disk) (place : Place) : Prop where
  usable : ∀ part ∈ place, IsUsable part
  down : ".." ∉ place
  noLinks : ∀ front, front <+: place → d.target? front = none

namespace Canonical

theorem root (d : Disk) : d.Canonical [] where
  usable := nofun
  down := nofun
  noLinks front above := by
    rw [List.prefix_nil.1 above]
    rfl

theorem of_prefix (h : d.Canonical place) (above : front <+: place) : d.Canonical front where
  usable part mem := h.usable part (above.subset mem)
  down mem := h.down (above.subset mem)
  noLinks _ above' := h.noLinks _ (above'.trans above)

theorem snoc (h : d.Canonical place) {part : String} (usable : IsUsable part) (down : part ≠ "..")
    (noLink : d.target? (place ++ [part]) = none) : d.Canonical (place ++ [part]) where
  usable := by
    intro part' mem
    rcases List.mem_append.1 mem with mem | mem
    · exact h.usable part' mem
    · rwa [List.mem_singleton.1 mem]
  down mem := by
    rcases List.mem_append.1 mem with mem | mem
    · exact h.down mem
    · exact down (List.mem_singleton.1 mem).symm
  noLinks front above := by
    rcases List.prefix_concat_iff.1 above with rfl | above
    · exact noLink
    · exact h.noLinks front above

/-- What is written in a canonical place is where it leads. -/
theorem follows (h : d.Canonical (done ++ rest)) : d.Follows done rest (done ++ rest) := by
  induction rest generalizing done with
  | nil =>
    rw [List.append_nil]
    exact ⟨0, .done done⟩
  | cons part rest ih =>
    rw [List.append_cons] at h ⊢
    obtain ⟨steps, more⟩ := ih h
    have hpart : part ≠ ".." := fun up => h.down (by simp [up])
    exact ⟨_, .down hpart (h.noLinks _ (List.prefix_append _ _)) more⟩

end Canonical

/-- Where a path ends is a canonical place. -/
theorem FollowsIn.canonical (tree : d.Tree) (h : d.FollowsIn steps done rest goal)
    (start : d.Canonical done) (usable : ∀ part ∈ rest, IsUsable part) : d.Canonical goal := by
  induction h with
  | done => exact start
  | up _ ih =>
    obtain ⟨-, hrest⟩ := List.forall_mem_cons.1 usable
    exact ih (start.of_prefix (List.dropLast_prefix _)) hrest
  | down hpart noLink _ ih =>
    obtain ⟨first, hrest⟩ := List.forall_mem_cons.1 usable
    exact ih (start.snoc first hpart noLink) hrest
  | @link within steps done reached goal part target rest hpart found _ _ ihThrough ih =>
    obtain ⟨-, hrest⟩ := List.forall_mem_cons.1 usable
    have first : d.Canonical (linkStart done target) := by
      unfold linkStart
      split
      · exact .root d
      · exact start
    exact ih (ihThrough first fun part mem =>
      isUsable_of_mem_componentsOf (tree.noNull _ _ found) mem) hrest

/-- What an operation finds is where the path ends. -/
theorem Leads.follows {opened : List Place} (h : d.Leads opened done rest goal) :
    d.Follows done rest goal := by
  induction h with
  | done => exact ⟨0, .done _⟩
  | up _ _ ih =>
    obtain ⟨_, more⟩ := ih
    exact ⟨_, .up more⟩
  | down _ hpart _ free _ ih =>
    obtain ⟨_, more⟩ := ih
    exact ⟨_, .down hpart free more⟩
  | link _ hpart _ found _ _ _ ihThrough ih =>
    obtain ⟨_, through⟩ := ihThrough
    obtain ⟨_, more⟩ := ih
    exact ⟨_, .link hpart found through more⟩

/-! ## Writing inside a directory -/

namespace Canonical

/-- With more directories a canonical place is still found where it is written. -/
theorem locate_eq {d' : Disk} (h : d.Canonical place) (grown : d.Grown d')
    (located : d'.locate ⟨"/", place⟩ = .ok goal) : goal = place := by
  refine (locate_eq_ok.1 located).2.eq_of_noLinks h.down fun front above => ?_
  rw [grown.keepsWays.links]
  exact h.noLinks front above

/-- A file for a canonical place that is not the root is put there. -/
theorem goal?_eq {c : Call} {part : String} (h : c.before.Canonical (place ++ [part]))
    (path : c.writing.path = ⟨"/", place ++ [part]⟩) (found : c.goal? = some q) :
    q = place ++ [part] := by
  rw [Call.goal?, path, Path.parent_concat, Path.name_concat] at found
  split at found
  · next directory located =>
    have grown := c.made_toward.grown
    rw [← (h.of_prefix (List.prefix_append _ _)).locate_eq grown (locateDirectory_eq_ok.1 located).1]
    exact (Option.some.inj found).symm
  · cases found

/-- A text that is written to a canonical place inside a directory changes nothing outside. -/
theorem writeUnless_outside (h : d.Canonical place) (tree : d.Tree)
    (directory : d.entry? base = some .directory) (inside : base <+: place)
    (broken : Option Breakdown) (text random : String) (outside : ¬base <+: q) :
    Disk.entry? (d.writeUnless broken ⟨"/", place⟩ text random).2 q = d.entry? q := by
  let c : Call := ⟨⟨⟨"/", place⟩, text, random, broken⟩, d⟩
  by_contra changed
  refine outside ?_
  rcases c.settled.changes q changed with fills | new
  · rcases List.eq_nil_or_concat' place with rfl | ⟨front, last, rfl⟩
    · rw [List.prefix_nil.1 inside]
      exact List.nil_prefix
    · rw [Call.fills, Bool.and_eq_true, decide_eq_true_eq] at fills
      rwa [goal?_eq h rfl fills.2]
  · obtain ⟨front, above, located⟩ := new.onTheWay
    have above : front <+: place := above.trans (List.dropLast_prefix _)
    obtain rfl := (h.of_prefix above).locate_eq c.made_toward.grown located
    -- a new directory above the base is none, since the base is there
    refine (List.prefix_or_prefix_of_prefix inside above).resolve_right fun up => ?_
    cases new.free.symm.trans (tree.directory_of_prefix directory up)

end Canonical

/-! ## Judging output paths -/

/-- An accepted place: it is canonical and inside the base, and what is written there changes nothing
outside. -/
structure Contains (d : Disk) (base place : Place) : Prop where
  absolute : Path.ofString place.text = ⟨"/", place⟩
  canonical : d.Canonical place
  inside : base <+: place
  outside : d.entry? base = some .directory → ∀ broken text random q, ¬base <+: q →
    Disk.entry? (d.writeUnless broken ⟨"/", place⟩ text random).2 q = d.entry? q

/-- An output path leads from a base to a place, and it is accepted if that is inside and refused if it
is not. -/
structure Judges (d : Disk) (start : Place) (output : String) (base place : Place)
    (verdict : Except OutputFault Place) : Prop where
  based : d.Follows [] start base
  leads : d.Follows base (Path.ofString output).parts place
  /-- Where an operation finds something by the path, it is in that place. -/
  located : ∀ found, d.locate ⟨"/", start ++ (Path.ofString output).parts⟩ = .ok found → found = place
  judged : verdict = .ok place ∧ d.Contains base place ∨
    verdict = .error (.outside output base) ∧ ¬base <+: place

end Disk

/-- A path that is two names below a directory, also when it is written and read again. -/
structure IsTwoBelow (p directory : Path) : Prop where
  written : Path.ofString p.text = p
  above : p.parent.parent = directory
  deeper : p.parts.length = directory.parts.length + 2
  down : ".." ∉ [p.parent.name, p.name]

theorem isTwoBelow_of_reportPath {directory owner name : String} {p : Path}
    (ok : reportPath directory owner name = .ok p) : IsTwoBelow p (.ofString directory) := by
  obtain ⟨howner, hname, rfl⟩ := reportPath_ok ok
  obtain ⟨owned, ownerDown⟩ := isSlugPart_component howner
  obtain ⟨named, nameDown⟩ := isComponent_fileName (isSlugPart_component hname).1
  have ends : ∀ part ∈ [owner, name ++ ".md"], IsComponent part := by simp [owned, named]
  refine ⟨Path.ofString_text (Path.root_ofString directory) fun part mem => ?_, ?_, ?_, ?_⟩
  · exact (List.mem_append.1 mem).elim isComponent_of_mem_componentsOf (ends part)
  · simp [Path.parent, Path.ofString]
  · simp [Path.ofString]
  · simp [Path.parent, Path.name, Ne.symm ownerDown, Ne.symm nameDown]

theorem reportPath_unique {directory owner name directory' owner' name' : String} {p p' : Path}
    (ok : reportPath directory owner name = .ok p)
    (ok' : reportPath directory' owner' name' = .ok p') (same : p'.text = p.text) :
    (owner', name') = (owner, name) := by
  have paths : p' = p := by
    rw [← (isTwoBelow_of_reportPath ok').written, same, (isTwoBelow_of_reportPath ok).written]
  obtain ⟨-, -, rfl⟩ := reportPath_ok ok
  obtain ⟨-, -, rfl⟩ := reportPath_ok ok'
  obtain ⟨-, ends⟩ := List.append_inj' (congrArg Path.parts paths) rfl
  obtain ⟨howner, hname⟩ := List.cons_eq_cons.1 ends
  exact Prod.ext howner ((String.append_left_inj _).1 (List.singleton_inj.1 hname))

/-- In a directory tree whose links form no loop, a relative output path is accepted if the place that
it leads to is inside the base, and refused if it is not. An accepted place is absolute, without `..` and
without links, and what is written there stays inside the base. A report path is given for the names of
repositories and no others; it is two levels below its directory, and those of different repositories are
different. -/
theorem outputPlace_judges {d : Disk} (tree : d.Tree) {base : Option Place}
    (usable : ∀ part ∈ base.getD d.cwd, IsUsable part) {output : String}
    (noNull : '\x00' ∉ output.toList) (relative : (Path.ofString output).isAbsolute = false) :
    (∃ root place, d.Judges (base.getD d.cwd) output root place (d.outputPlace output base)) ∧
      ∀ directory owner name,
        ((∃ p, reportPath directory owner name = .ok p) ↔
          IsRepositoryName owner ∧ IsRepositoryName name) ∧
        ∀ p, reportPath directory owner name = .ok p →
          IsTwoBelow p (.ofString directory) ∧
            ∀ directory' owner' name' p', reportPath directory' owner' name' = .ok p' →
              p'.text = p.text → (owner', name') = (owner, name) := by
  refine ⟨?_, fun _ _ _ => ⟨exists_reportPath_iff, fun _ ok =>
    ⟨isTwoBelow_of_reportPath ok, fun _ _ _ _ => reportPath_unique ok⟩⟩⟩
  obtain ⟨root, hroot⟩ := tree.noLoops.follows [] (base.getD d.cwd)
  obtain ⟨place, hplace⟩ := tree.noLoops.follows root (Path.ofString output).parts
  have parts : ∀ part ∈ (Path.ofString output).parts, IsUsable part :=
    fun _ mem => isUsable_of_mem_componentsOf noNull mem
  have rooted : d.Canonical root := hroot.elim fun _ h => h.canonical tree (.root d) usable
  have placed : d.Canonical place := hplace.elim fun _ h => h.canonical tree rooted parts
  have itself : d.Follows [] root root := Disk.Canonical.follows rooted
  have whole : d.Follows [] (root ++ (Path.ofString output).parts) place := itself.append hplace
  have resolvedRoot := hroot.resolve fun part mem => (usable part mem).noNull
  have resolved := whole.resolve fun part mem =>
    (List.mem_append.1 mem).elim (fun mem => (rooted.usable part mem).noNull)
      fun mem => (parts part mem).noNull
  refine ⟨root, place, hroot, hplace, fun found located => ?_, ?_⟩
  · exact (Disk.locate_eq_ok.1 located).2.follows.unique (hroot.append hplace)
  unfold Disk.outputPlace
  simp only [relative, Bool.false_eq_true, if_false, resolvedRoot, resolved,
    List.isPrefixOf_iff_prefix]
  split
  · next inside =>
    refine .inl ⟨rfl, ?_, placed, inside, fun directory broken text random q outside => ?_⟩
    · exact Path.ofString_placeText fun part mem => (placed.usable part mem).toIsComponent
    · exact placed.writeUnless_outside tree directory inside broken text random outside
  · next outside => exact .inr ⟨rfl, outside⟩

/-! ## A tree with links -/

/-- A working directory with a link to a directory in it, and one to the directory above. -/
def linkedWork : Disk where
  entries := [(["srv"], .directory), (["work"], .directory), (["work", "docs"], .directory),
    (["work", "latest"], .link "./docs"), (["work", "up"], .link "../")]
  cwd := ["work"]

theorem linkedWork_links {place : Place} {target : String}
    (found : linkedWork.target? place = some target) :
    place = ["work", "latest"] ∧ target = "./docs" ∨ place = ["work", "up"] ∧ target = "../" := by
  have mem := Disk.mem_of_target? found
  simpa [linkedWork] using mem

theorem linkedWork_tree : linkedWork.Tree where
  parents := by
    intro place part entry found
    have mem := Disk.mem_entries (by simp) found
    simp only [linkedWork, List.mem_cons, Prod.mk.injEq, List.not_mem_nil, or_false] at mem
    rcases mem with ⟨shape, -⟩ | ⟨shape, -⟩ | ⟨shape, -⟩ | ⟨shape, -⟩ | ⟨shape, -⟩
    all_goals
      have above := congrArg List.dropLast shape
      rw [List.dropLast_concat] at above
      subst above
      rfl
  noLoops := by
    intro directory part target found
    rcases linkedWork_links found with ⟨shape, rfl⟩ | ⟨shape, rfl⟩
    all_goals
      have above := congrArg List.dropLast shape
      rw [List.dropLast_concat] at above
      subst above
    · exact ⟨["work", "docs"], _, .down (by decide) (by decide) (.done _)⟩
    · exact ⟨[], _, .up (.done _)⟩
  noNull := by
    intro place target found
    rcases linkedWork_links found with ⟨-, rfl⟩ | ⟨-, rfl⟩ <;> decide

/-- A path through the one link stays inside the working directory, and a path through the other one
leads out of it. -/
theorem linkedWork_outputPlace :
    linkedWork.outputPlace "latest/a.md" none = .ok ["work", "docs", "a.md"] ∧
      linkedWork.outputPlace "up/srv/a.md" none = .error (.outside "up/srv/a.md" ["work"]) := by
  have usable : ∀ part ∈ (none : Option Place).getD linkedWork.cwd, IsUsable part := by
    intro part mem
    obtain rfl := List.mem_singleton.1 mem
    exact ⟨⟨by decide, by decide, by decide⟩, by decide⟩
  have base : linkedWork.Follows [] ["work"] ["work"] :=
    ⟨_, .down (by decide) (by decide) (.done _)⟩
  have inside : linkedWork.Follows ["work"] ["latest", "a.md"] ["work", "docs", "a.md"] :=
    ⟨_, .link (by decide) rfl (.down (by decide) (by decide) (.done _))
      (.down (by decide) (by decide) (.done _))⟩
  have outside : linkedWork.Follows ["work"] ["up", "srv", "a.md"] ["srv", "a.md"] :=
    ⟨_, .link (by decide) rfl (.up (.done _))
      (.down (by decide) (by decide) (.down (by decide) (by decide) (.done _)))⟩
  constructor
  · obtain ⟨⟨root, place, judges⟩, -⟩ :=
      outputPlace_judges linkedWork_tree usable (show '\x00' ∉ "latest/a.md".toList by decide) (by decide)
    obtain rfl := judges.based.unique base
    obtain rfl := judges.leads.unique inside
    exact (judges.judged.resolve_right fun refused => refused.2 (by decide)).1
  · obtain ⟨⟨root, place, judges⟩, -⟩ :=
      outputPlace_judges linkedWork_tree usable (show '\x00' ∉ "up/srv/a.md".toList by decide) (by decide)
    obtain rfl := judges.based.unique base
    obtain rfl := judges.leads.unique outside
    exact (judges.judged.resolve_left fun accepted => absurd accepted.2.inside (by decide)).1

end CodeOutline.Files
