import CodeOutline.Proofs.Files.Path
import CodeOutline.Proofs.Files.Writing

/-!
# Disks without links

Where there are no links, a path leads along its own components, so what an operation finds depends on
the directories that it goes through and on nothing else. Writing a file makes directories where nothing
has been (`Grown`), and then either fails or puts one file in its place (`Replaced`). No directory ever
goes, and so every other file is found where it was.
-/

namespace CodeOutline.Files

namespace Disk

variable {d d' : Disk} {place q : Place} {p : Path} {text : String}

/-- No entry is a link, and the working directory is made of components. -/
structure Plain (d : Disk) : Prop where
  noLinks : ∀ place target, d.entry? place ≠ some (.link target)
  cwd : ∀ part ∈ d.cwd, IsComponent part

theorem Plain.target?_eq (h : d.Plain) (place : Place) : d.target? place = none := by
  unfold target?
  split
  · next target found => exact absurd found (h.noLinks place target)
  · rfl

/-! ## Following a path -/

theorem Plain.resolveFrom_eq (h : d.Plain) (opened : List Place) (done : Place) (rest : List String) :
    d.resolveFrom opened done rest = .ok
      (rest.foldl (fun done part => if part = ".." then done.dropLast else done ++ [part]) done) := by
  induction rest generalizing done with
  | nil => rw [resolveFrom, List.foldl_nil]
  | cons part rest ih =>
    rw [resolveFrom, List.foldl_cons]
    split
    · exact ih _
    · split
      · exact ih _
      · next found => cases (h.target?_eq _).symm.trans found

/-- Without links the canonical form is that without `..`. -/
theorem Plain.resolve_ok (h : d.Plain) {goal : Place} (ok : d.resolve place = .ok goal) :
    goal = place.normalize := by
  unfold resolve at ok
  split at ok
  · cases ok
  · rw [h.resolveFrom_eq] at ok
    cases ok
    rfl

/-- Without `..` a path leads to the place that it writes. -/
theorem Plain.locate_eq (h : d.Plain) {goal : Place} (down : ".." ∉ place)
    (ok : d.locate ⟨"/", place⟩ = .ok goal) : goal = place :=
  (locate_eq_ok.1 ok).2.eq_of_noLinks down fun _ _ => h.target?_eq _

/-! ## New directories -/

namespace Grown

theorem plain (h : d.Grown d') (hd : d.Plain) : d'.Plain := by
  refine ⟨fun place target found => ?_, by rw [h.cwd]; exact hd.cwd⟩
  rcases h.entries place with e | ⟨-, made⟩
  · exact hd.noLinks place target (e.symm.trans found)
  · cases made.symm.trans found

end Grown

/-! ## Writing a file -/

theorem Plain.put_file (h : d.Plain) (free : d.entry? place ≠ some .directory) (text : String) :
    (d.put place (.file text)).Plain := by
  refine ⟨fun q target found => ?_, by rw [cwd_put]; exact h.cwd⟩
  rw [lookup_put d (ne_nil_of_free free)] at found
  split at found
  · cases found
  · exact h.noLinks q target found

/-- The disk with a file in its place, instead of another file or of nothing, and perhaps more
directories. -/
structure Replaced (d : Disk) (place : Place) (text : String) (d' : Disk) : Prop where
  put : ∃ made, d.Grown made ∧ made.entry? place ≠ some .directory ∧ d' = made.put place (.file text)
  read : d'.read? ⟨"/", place⟩ = some text

namespace Replaced

theorem plain (h : d.Replaced place text d') (hd : d.Plain) : d'.Plain := by
  obtain ⟨made, grown, free, rfl⟩ := h.put
  exact (grown.plain hd).put_file free text

/-- Every other file is found where it was. -/
theorem read?_other (h : d.Replaced place text d') (hd : d.Plain) {text' : String}
    (down : ".." ∉ q) (other : q ≠ place) (read : d.read? ⟨"/", q⟩ = some text') :
    d'.read? ⟨"/", q⟩ = some text' := by
  obtain ⟨made, grown, free, rfl⟩ := h.put
  have hmade := grown.plain hd
  obtain ⟨goal, located, found⟩ := read?_eq_some.1 (grown.read? read)
  obtain rfl : goal = q := hmade.locate_eq down located
  refine (keepsWays_put_file free (hmade.target?_eq _)).read? located ?_
  rw [lookup_put made (ne_nil_of_free free), if_neg other]
  exact found

end Replaced

/-- A file that is put into a directory can be read, with the text that it was given. -/
theorem Plain.replaceFile_ok (h : d.Plain) {front directory : Place} {last : String}
    (down : ".." ∉ front ++ [last]) (short : last.utf8ByteSize ≤ componentLimit)
    (located : d.locateDirectory ⟨"/", front⟩ = .ok directory)
    (ok : d.replaceFile directory ⟨"/", front ++ [last]⟩ text = .ok d') :
    d.entry? (front ++ [last]) ≠ some .directory ∧ d' = d.put (front ++ [last]) (.file text) ∧
      d'.read? ⟨"/", front ++ [last]⟩ = some text := by
  obtain ⟨hfront, -⟩ : ".." ∉ front ∧ ".." ≠ last := by simpa using down
  obtain rfl : directory = front := h.locate_eq hfront (locateDirectory_eq_ok.1 located).1
  obtain ⟨proper, fits, free, rfl⟩ := replaceFile_eq_ok.1 ok
  have itself := locate_of_parent proper fits (by rwa [Path.parent_concat])
    (by rwa [Path.name_concat]) (h.target?_eq _)
  rw [Path.name_concat] at free itself ⊢
  refine ⟨free, rfl, (keepsWays_put_file free (h.target?_eq _)).read? itself ?_⟩
  rw [lookup_put d (ne_nil_of_free free), if_pos rfl]

/-- Where there are no links, a file is written with only new directories, or it is in its place. -/
theorem Plain.write_cases (h : d.Plain) (down : ".." ∉ place) (text random : String) :
    (∃ fault, (d.write ⟨"/", place⟩ text random).1 = .error fault ∧
        d.Grown (d.write ⟨"/", place⟩ text random).2) ∨
      (d.write ⟨"/", place⟩ text random).1 = .ok () ∧
        d.Replaced place text (d.write ⟨"/", place⟩ text random).2 := by
  have grown := (ensureDirectories_toward d (Path.parent ⟨"/", place⟩)).grown
  unfold write
  rcases writeUnless_cases none d ⟨"/", place⟩ text random with
    ⟨-, fault, failed⟩ | ⟨-, directory, d', written, located, short, ok⟩
  · rw [failed]
    exact .inl ⟨fault, rfl, grown⟩
  · rw [written]
    refine .inr ⟨rfl, ?_⟩
    rcases List.eq_nil_or_concat' place with rfl | ⟨front, last, rfl⟩
    · cases ok
    · rw [Path.name_concat] at short
      rw [Path.parent_concat] at grown located ok
      obtain ⟨free, rfl, read⟩ := (grown.plain h).replaceFile_ok down short located ok
      exact ⟨⟨_, grown, free, rfl⟩, read⟩

end Disk

end CodeOutline.Files
