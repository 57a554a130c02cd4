import CodeOutline.Proofs.Data.Outcome
import CodeOutline.Proofs.Files.Directories

/-!
# Writing a file

A text is written into a temporary file, which is moved to its place. The temporary file is new, so no
path leads elsewhere while it is there (`locateDirectory_put_file`), and it is gone afterwards whatever
happens: `writeUnless_cases` says that a disk is left with the directories that have been made and
nothing else, or, exactly if nothing is in the way (`Unhindered`), with the text in its place too.
-/

namespace CodeOutline.Files.Disk

variable {d d' : Disk} {place q goal directory temporary : Place} {p : Path}
  {text random name : String}

/-! ## Files and ways -/

/-- A file is put where there is no directory, and all directories stay. -/
theorem directory_put_file (free : d.entry? place ≠ some .directory)
    (there : d.entry? q = some .directory) :
    entry? (d.put place (.file text)) q = some .directory := by
  have apart : q ≠ place := by
    rintro rfl
    exact free there
  rw [lookup_put d (ne_nil_of_free free), if_neg apart]
  exact there

theorem target?_put_file (free : d.entry? place ≠ some .directory) (noLink : d.target? place = none)
    (q : Place) : target? (d.put place (.file text)) q = d.target? q := by
  by_cases here : q = place
  · rw [here, noLink, target?, lookup_put d (ne_nil_of_free free), if_pos rfl]
  · rw [target?, lookup_put d (ne_nil_of_free free), if_neg here, target?]

theorem keepsWays_put_file (free : d.entry? place ≠ some .directory)
    (noLink : d.target? place = none) : d.KeepsWays (d.put place (.file text)) where
  cwd := cwd_put ..
  directories _ := directory_put_file free
  links := target?_put_file free noLink

/-- A file that is put where no directory and no link is leads nowhere. -/
theorem keepsWays_of_put_file (free : d.entry? place ≠ some .directory)
    (noLink : d.target? place = none) : (d.put place (.file text)).KeepsWays d where
  cwd := (cwd_put ..).symm
  directories q there := by
    rw [lookup_put d (ne_nil_of_free free)] at there
    split at there
    · cases there
    · exact there
  links q := (target?_put_file free noLink q).symm

theorem locateDirectory_put_file (free : d.entry? place = none) :
    locateDirectory (d.put place (.file text)) p = .ok directory ↔
      d.locateDirectory p = .ok directory := by
  have vacant : d.entry? place ≠ some .directory := by simp [free]
  have noLink : d.target? place = none := by rw [target?, free]
  exact ⟨(keepsWays_of_put_file vacant noLink).locateDirectory,
    (keepsWays_put_file vacant noLink).locateDirectory⟩

/-! ## Temporary files -/

theorem utf8ByteSize_temporaryName (name random : String) :
    (temporaryName name random).utf8ByteSize =
      1 + name.utf8ByteSize + 1 + random.utf8ByteSize + 4 := by
  simp only [temporaryName, ToString.toString, String.utf8ByteSize_append]
  rfl

/-- A temporary file never stands where the file shall be. -/
theorem temporary_ne : goal ++ [name] ≠ directory ++ [temporaryName name random] := by
  intro same
  have names := congrArg String.utf8ByteSize (List.singleton_inj.1 (List.append_inj_right' same rfl))
  rw [utf8ByteSize_temporaryName] at names
  omega

/-- A temporary file for a path can be made at a place: nothing is there, and its name and its path are
not too long. -/
structure TemporaryAt (d : Disk) (p : Path) (random : String) (place : Place) : Prop where
  noNull : ¬p.hasNull
  shortName : (temporaryName p.name random).utf8ByteSize ≤ componentLimit
  shortPath : (d.temporaryPath p random).utf8ByteSize ≤ pathLimit
  inside : ∃ directory, d.locateDirectory ⟨"/", d.temporaryDirectory p⟩ = .ok directory ∧
    place = directory ++ [temporaryName p.name random]
  free : d.entry? place = none

namespace TemporaryAt

/-- It is not where any file of that name shall be. -/
theorem apart (h : d.TemporaryAt p random temporary) (directory : Place) :
    directory ++ [p.name] ≠ temporary := by
  obtain ⟨_, -, rfl⟩ := h.inside
  exact temporary_ne

theorem short (h : d.TemporaryAt p random temporary) : p.name.utf8ByteSize ≤ componentLimit := by
  have size := h.shortName
  rw [utf8ByteSize_temporaryName] at size
  omega

end TemporaryAt

theorem makeTemporary_eq_ok :
    d.makeTemporary p random = .ok (temporary, d') ↔
      d.TemporaryAt p random temporary ∧ d.put temporary (.file "") = d' := by
  unfold makeTemporary
  dsimp only
  constructor
  · intro ok
    split at ok
    · cases ok
    next noNull =>
    split at ok
    · cases ok
    next fits =>
    split at ok
    · cases ok
    next directory located =>
    split at ok
    · cases ok
    next there =>
    cases ok
    rw [Bool.not_eq_true, Bool.or_eq_false_iff, decide_eq_false_iff_not,
      decide_eq_false_iff_not] at fits
    exact ⟨⟨noNull, Nat.not_lt.1 fits.1, Nat.not_lt.1 fits.2, ⟨directory, located, rfl⟩,
      Option.not_isSome_iff_eq_none.1 there⟩, rfl⟩
  · rintro ⟨⟨noNull, shortName, shortPath, ⟨directory, located, rfl⟩, free⟩, rfl⟩
    rw [if_neg noNull, if_neg (by simp [Nat.not_lt.2 shortName, Nat.not_lt.2 shortPath]), located]
    simp [free]

/-! ## Moving -/

theorem replaceFile_eq_ok :
    d.replaceFile directory p text = .ok d' ↔
      ¬p.isTraversal ∧ p.text.utf8ByteSize ≤ pathLimit ∧
        d.entry? (directory ++ [p.name]) ≠ some .directory ∧
        d.put (directory ++ [p.name]) (.file text) = d' := by
  unfold replaceFile
  split
  · next traversal => simp [traversal]
  · next proper =>
    split
    · next long => simp [Nat.not_le.2 long]
    · next fits =>
      split
      · next found => simp [found]
      · next vacant =>
        rw [Except.ok.injEq]
        exact ⟨fun same => ⟨proper, Nat.not_lt.1 fits, vacant, same⟩, fun h => h.2.2.2⟩

/-- A move takes the file out of its old place and puts it into the new one. -/
theorem move_eq_ok {moved : Disk} (free : d.entry? temporary = none)
    (apart : ∀ directory : Place, directory ++ [p.name] ≠ temporary) :
    (d.put temporary (.file text)).move temporary p = .ok moved ↔
      ∃ directory, d.locateDirectory p.parent = .ok directory ∧
        d.replaceFile directory p text = .ok moved := by
  have below : temporary ≠ [] := ne_nil_of_free (d := d) (by simp [free])
  have replaced (directory : Place) :
      ((d.put temporary (.file text)).replaceFile directory p text).map (·.remove temporary) =
        .ok moved ↔ d.replaceFile directory p text = .ok moved := by
    rw [map_eq_ok]
    simp only [replaceFile_eq_ok, lookup_put d below, if_neg (apart directory)]
    constructor
    · rintro ⟨both, ⟨proper, fits, vacant, rfl⟩, rfl⟩
      exact ⟨proper, fits, vacant, (remove_put_put free (apart directory) ..).symm⟩
    · rintro ⟨proper, fits, vacant, rfl⟩
      exact ⟨_, ⟨proper, fits, vacant, rfl⟩, remove_put_put free (apart directory) ..⟩
  unfold move
  rw [lookup_put d below, if_pos rfl]
  dsimp only
  rcases located : (d.put temporary (.file text)).locateDirectory p.parent with errno | directory
  · have nowhere (directory : Place) : d.locateDirectory p.parent ≠ .ok directory := fun ok => by
      cases located.symm.trans ((locateDirectory_put_file free).2 ok)
    simp [nowhere]
  · rw [(locateDirectory_put_file free).1 located]
    simpa using replaced directory

/-! ## Writing -/

/-- Nothing is in the way of a text that is written to a path, when its directories have been made with
that answer: the text does not break off, there is a place for a temporary file, and the path leads to
something else than a directory. -/
structure Unhindered (broken : Option Breakdown) (answer : Except WriteFault Unit × Disk) (p : Path)
    (random : String) : Prop where
  unbroken : broken = none
  made : answer.1 = .ok ()
  beside : ∃ place, answer.2.TemporaryAt p random place
  proper : ¬p.isTraversal
  fits : p.text.utf8ByteSize ≤ pathLimit
  room : ∃ directory, answer.2.locateDirectory p.parent = .ok directory ∧
    entry? answer.2 (directory ++ [p.name]) ≠ some .directory

/-- After writing there are the directories that have been made and nothing else that is new, or the
text is in its place too, if nothing is in the way. -/
theorem writeUnless_cases (broken : Option Breakdown) (d : Disk) (p : Path) (text random : String) :
    (¬Unhindered broken (d.ensureDirectories p.parent) p random ∧
      ∃ fault, d.writeUnless broken p text random =
        (.error fault, (d.ensureDirectories p.parent).2)) ∨
      Unhindered broken (d.ensureDirectories p.parent) p random ∧
        ∃ directory d', d.writeUnless broken p text random = (.ok (), d') ∧
          (d.ensureDirectories p.parent).2.locateDirectory p.parent = .ok directory ∧
          p.name.utf8ByteSize ≤ componentLimit ∧
          (d.ensureDirectories p.parent).2.replaceFile directory p text = .ok d' := by
  unfold writeUnless
  rcases d.ensureDirectories p.parent with ⟨fault | _, made⟩
  · exact .inl ⟨fun unhindered => (nomatch unhindered.made), fault, rfl⟩
  dsimp only
  rcases making : made.makeTemporary p random with fault | ⟨temporary, opened⟩
  · refine .inl ⟨fun unhindered => ?_, fault, rfl⟩
    obtain ⟨place, beside⟩ := unhindered.beside
    cases making.symm.trans (makeTemporary_eq_ok.2 ⟨beside, rfl⟩)
  obtain ⟨beside, rfl⟩ := makeTemporary_eq_ok.1 making
  have free := beside.free
  dsimp only
  -- the temporary file is taken away on both ways out, so what is left is the disk before it was made
  cases broken with
  | some b =>
    refine .inl ⟨fun unhindered => (nomatch unhindered.unbroken), b.fault, ?_⟩
    simp only [fill, put_put free, remove_put free]
  | none =>
    simp only [fill, put_put free]
    rcases moving : (made.put temporary (.file text)).move temporary p with errno | d'
    · dsimp only
      rw [remove_put free]
      refine .inl ⟨fun unhindered => ?_, _, rfl⟩
      obtain ⟨directory, located, vacant⟩ := unhindered.room
      have replaced : made.replaceFile directory p text =
          .ok (made.put (directory ++ [p.name]) (.file text)) :=
        replaceFile_eq_ok.2 ⟨unhindered.proper, unhindered.fits, vacant, rfl⟩
      cases moving.symm.trans ((move_eq_ok free beside.apart).2 ⟨directory, located, replaced⟩)
    · obtain ⟨directory, located, replaced⟩ := (move_eq_ok free beside.apart).1 moving
      obtain ⟨proper, fits, vacant, -⟩ := replaceFile_eq_ok.1 replaced
      exact .inr ⟨⟨rfl, rfl, ⟨temporary, beside⟩, proper, fits, ⟨directory, located, vacant⟩⟩,
        directory, d', rfl, located, beside.short, replaced⟩

end CodeOutline.Files.Disk
