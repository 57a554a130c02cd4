import CodeOutline.Proofs.Files.Plain

/-!
# Places of reports

A report's place ends with the owner and the name of its repository, whatever directory it is below and
whether that is given from the root on or not. So reports of different repositories have different
places, even where one directory is inside another.
-/

namespace CodeOutline.Files

/-- A place that a report of the repository of that owner and name can have. -/
structure IsReportPlace (owner name : String) (place : Place) : Prop where
  components : ∀ part ∈ place, IsComponent part
  down : ".." ∉ place
  ends : ∃ directory, place = directory ++ [owner, name ++ ".md"]

/-- The report of one repository is never in the place of another one's. -/
theorem IsReportPlace.unique {owner name owner' name' : String} {place : Place}
    (h : IsReportPlace owner name place) (h' : IsReportPlace owner' name' place) :
    (owner, name) = (owner', name') := by
  obtain ⟨directory, rfl⟩ := h.ends
  obtain ⟨directory', e⟩ := h'.ends
  obtain ⟨-, ends⟩ := List.append_inj' e rfl
  obtain ⟨howner, hname⟩ := List.cons_eq_cons.1 ends
  exact Prod.ext howner ((String.append_left_inj _).1 (List.singleton_inj.1 hname))

/-- A name of an owner or of a repository: some letters, digits and marks that are neither of the two
components with a meaning of their own. -/
structure IsRepositoryName (s : String) : Prop where
  nonempty : s ≠ ""
  notDot : s ≠ "."
  notUp : s ≠ ".."
  chars : ∀ c ∈ s.toList, ('A' ≤ c ∧ c ≤ 'Z') ∨ ('a' ≤ c ∧ c ≤ 'z') ∨ ('0' ≤ c ∧ c ≤ '9') ∨
    c = '_' ∨ c = '.' ∨ c = '-'

theorem isSlugChar_iff {c : Char} : isSlugChar c = true ↔ ('A' ≤ c ∧ c ≤ 'Z') ∨
    ('a' ≤ c ∧ c ≤ 'z') ∨ ('0' ≤ c ∧ c ≤ '9') ∨ c = '_' ∨ c = '.' ∨ c = '-' := by
  have alphanum : c.isAlphanum = (decide (c.val ≥ 65 ∧ c.val ≤ 90) ||
      (c.val ≥ 97 && c.val ≤ 122) || (c.val ≥ 48 && c.val ≤ 57)) := rfl
  rw [isSlugChar, alphanum]
  simp [Char.le_def, or_assoc]

theorem isSlugPart_iff {s : String} : isSlugPart s ↔ IsRepositoryName s := by
  simp only [isSlugPart, Bool.and_eq_true, decide_eq_true_eq, Bool.not_eq_true', List.all_eq_true,
    isSlugChar_iff, String.isEmpty_eq_false_iff]
  constructor
  · rintro ⟨⟨⟨notDot, notUp⟩, nonempty⟩, chars⟩
    exact ⟨nonempty, notDot, notUp, chars⟩
  · rintro ⟨nonempty, notDot, notUp, chars⟩
    exact ⟨⟨⟨notDot, notUp⟩, nonempty⟩, chars⟩

theorem isSlugPart_component {s : String} (h : isSlugPart s) : IsComponent s ∧ s ≠ ".." := by
  have named := isSlugPart_iff.1 h
  exact ⟨⟨named.nonempty, named.notDot, fun slash => absurd (named.chars _ slash) (by decide)⟩,
    named.notUp⟩

theorem isComponent_fileName {name : String} (h : IsComponent name) :
    IsComponent (name ++ ".md") ∧ name ++ ".md" ≠ ".." := by
  have long (s : String) (e : name ++ ".md" = s) : 3 ≤ s.length := by
    rw [← e, String.length_append]
    exact Nat.le_add_left 3 _
  refine ⟨⟨fun e => ?_, fun e => ?_, ?_⟩, fun e => ?_⟩
  · exact absurd (long _ e) (by decide)
  · exact absurd (long _ e) (by decide)
  · rw [String.toList_append, List.mem_append]
    exact fun slash => slash.elim h.noSlash (by decide)
  · exact absurd (long _ e) (by decide)

theorem reportPath_ok {directory owner name : String} {p : Path}
    (ok : reportPath directory owner name = .ok p) :
    isSlugPart owner ∧ isSlugPart name ∧
      p = ⟨(Path.ofString directory).root, componentsOf directory ++ [owner, name ++ ".md"]⟩ := by
  unfold reportPath at ok
  split at ok
  · cases ok
  split at ok
  · cases ok
  · next howner hname =>
    cases ok
    simp only [Bool.not_eq_true, Bool.not_eq_false'] at howner hname
    exact ⟨howner, hname, rfl⟩

theorem exists_reportPath_iff {directory owner name : String} :
    (∃ p, reportPath directory owner name = .ok p) ↔ IsRepositoryName owner ∧ IsRepositoryName name := by
  rw [← isSlugPart_iff, ← isSlugPart_iff]
  constructor
  · rintro ⟨p, ok⟩
    obtain ⟨howner, hname, -⟩ := reportPath_ok ok
    exact ⟨howner, hname⟩
  · rintro ⟨howner, hname⟩
    exact ⟨_, by rw [reportPath, howner, hname]; rfl⟩

namespace Disk

variable {d : Disk} {place : Place}

/-- Where there are no links, the place of an output path is that below the root or below the working
directory, without `..`. -/
theorem Plain.outputPlace_ok (h : d.Plain) {output : String}
    (ok : d.outputPlace output none = .ok place) :
    ∃ above : Place, (∀ part ∈ above, IsComponent part) ∧
      place = Place.normalize (above ++ (Path.ofString output).parts) := by
  unfold outputPlace at ok
  dsimp only [Option.getD_none] at ok
  split at ok
  · cases resolved : d.resolve (Path.ofString output).parts with
    | error fault =>
      rw [resolved] at ok
      cases ok
    | ok goal =>
      rw [resolved] at ok
      cases ok
      exact ⟨[], nofun, h.resolve_ok resolved⟩
  · split at ok
    · cases ok
    next base hbase =>
      split at ok
      · cases ok
      next goal resolved =>
        split at ok
        · cases ok
          refine ⟨base, fun part hpart => ?_, h.resolve_ok resolved⟩
          rw [h.resolve_ok hbase] at hpart
          exact h.cwd part (Place.mem_of_mem_normalize hpart).1
        · cases ok

theorem Plain.isReportPlace (h : d.Plain) {directory owner name : String} {p : Path}
    (path : reportPath directory owner name = .ok p)
    (ok : d.outputPlace p.text none = .ok place) : IsReportPlace owner name place := by
  obtain ⟨howner, hname, hp⟩ := reportPath_ok path
  have hparts : p.parts = componentsOf directory ++ [owner, name ++ ".md"] := by rw [hp]
  have hroot : p.root ∈ Path.roots := by
    rw [hp]
    exact Path.root_ofString directory
  obtain ⟨owned, ownerDown⟩ := isSlugPart_component howner
  obtain ⟨named, nameDown⟩ := isComponent_fileName (isSlugPart_component hname).1
  obtain ⟨above, habove, rfl⟩ := h.outputPlace_ok ok
  have ends : ∀ part ∈ [owner, name ++ ".md"], IsComponent part := by
    simp [owned, named]
  have written : ∀ part ∈ p.parts, IsComponent part := by
    rw [hparts]
    exact fun part hpart =>
      (List.mem_append.1 hpart).elim isComponent_of_mem_componentsOf (ends part)
  rw [Path.parts_ofString_text hroot written]
  refine ⟨fun part hpart => ?_, fun up => (Place.mem_of_mem_normalize up).2 rfl, ?_⟩
  · exact (List.mem_append.1 (Place.mem_of_mem_normalize hpart).1).elim (habove part) (written part)
  · refine ⟨Place.normalize (above ++ componentsOf directory), ?_⟩
    have split : above ++ (componentsOf directory ++ [owner, name ++ ".md"]) =
        above ++ componentsOf directory ++ [owner] ++ [name ++ ".md"] := by simp
    rw [hparts, split, Place.normalize_snoc, if_neg nameDown, Place.normalize_snoc, if_neg ownerDown]
    simp

end Disk

end CodeOutline.Files
