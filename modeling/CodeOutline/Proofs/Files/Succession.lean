import CodeOutline.Proofs.Files.Writing

/-!
# Files written one after the other

A call that writes a file either puts the whole text in its place or changes no file, wherever it
breaks off; it does the first exactly if nothing is in the way (`Call.Settled`, `Call.settled`). So
however many calls follow each other, each place has the text of the last call that succeeded there,
and a place where none did has what it had (`text?_after`).

The place of a call is found when its directories have been made. If a link is there, the link is
replaced and what it leads to stays.
-/

namespace CodeOutline.Files

namespace Disk

/-- The text of the file that is at a place; links are not followed. -/
def text? (d : Disk) (place : Place) : Option String :=
  match d.entry? place with
  | some (.file text) => some text
  | _ => none

theorem text?_put_file {d : Disk} {place : Place} {text : String}
    (free : d.entry? place ≠ some .directory) (q : Place) :
    text? (d.put place (.file text)) q = if q = place then some text else d.text? q := by
  unfold text?
  rw [lookup_put d (ne_nil_of_free free)]
  by_cases here : q = place
  · simp [here]
  · simp [here]

theorem Grown.text? {d d' : Disk} (h : d.Grown d') (place : Place) :
    d'.text? place = d.text? place := by
  unfold Disk.text?
  rcases h.entries place with same | ⟨free, made⟩
  · rw [same]
  · rw [free, made]

end Disk

/-! ## One call -/

/-- A text to write, and how that goes. -/
structure Writing where
  path : Path
  text : String
  /-- The part of the temporary name that is tried last. -/
  random : String
  /-- How writing the text breaks off, if it does. -/
  broken : Option Disk.Breakdown := none

/-- A text that is written on a disk. -/
structure Call where
  writing : Writing
  before : Disk

namespace Call

variable {c : Call}

def result (c : Call) : Except WriteFault Unit × Disk :=
  c.before.writeUnless c.writing.broken c.writing.path c.writing.text c.writing.random

def outcome (c : Call) : Except WriteFault Unit := c.result.1

def after (c : Call) : Disk := c.result.2

/-- The answer when the directories for the file are made, and the disk then. -/
def making (c : Call) : Except WriteFault Unit × Disk :=
  c.before.ensureDirectories c.writing.path.parent

/-- The disk when the directories for the file have been made, as far as they can be. -/
def made (c : Call) : Disk := c.making.2

/-- The place of the file: its name in the directory that its path leads to. -/
def goal? (c : Call) : Option Place :=
  match c.made.locateDirectory c.writing.path.parent with
  | .ok directory => some (directory ++ [c.writing.path.name])
  | .error _ => none

/-- The call succeeds, and the place is that of its file. -/
def fills (c : Call) (place : Place) : Bool := c.outcome.isOk && c.goal? = some place

/-- The text is in its place and every other file is as it was. -/
structure Filled (c : Call) (goal : Place) : Prop where
  located : c.goal? = some goal
  written : c.after.text? goal = some c.writing.text
  others : ∀ place, place ≠ goal → c.after.text? place = c.before.text? place
  /-- The path leads to the directory as before, unless it goes through a link that the file replaces. -/
  way : c.made.target? goal = none →
    c.after.locateDirectory c.writing.path.parent = c.made.locateDirectory c.writing.path.parent
  /-- As long as the path leads to the directory it leads to the text. -/
  read : c.after.locateDirectory c.writing.path.parent =
    c.made.locateDirectory c.writing.path.parent → c.after.read? c.writing.path = some c.writing.text

/-- A directory that is new, and to which a part of the way to the file leads. -/
structure IsNewDirectory (c : Call) (place : Place) : Prop where
  free : c.before.entry? place = none
  directory : c.after.entry? place = some .directory
  onTheWay : ∃ front, front <+: c.writing.path.parent.parts ∧
    c.made.locate ⟨c.writing.path.root, front⟩ = .ok place

/-- What a call may do. In neither case is there a file that was not there, but for the one that was
asked for. -/
structure Settled (c : Call) : Prop where
  succeeds : c.outcome = .ok () ↔
    Disk.Unhindered c.writing.broken c.making c.writing.path c.writing.random
  ok : c.outcome = .ok () → ∃ goal, c.Filled goal
  failed : ∀ fault, c.outcome = .error fault → ∀ place, c.after.text? place = c.before.text? place
  changes : ∀ place, c.after.entry? place ≠ c.before.entry? place →
    c.fills place ∨ c.IsNewDirectory place

theorem made_toward (c : Call) : c.before.GrownToward c.writing.path.parent c.made :=
  Disk.ensureDirectories_toward ..

theorem isNewDirectory_of_made {place : Place}
    (changed : c.made.entry? place ≠ c.before.entry? place)
    (same : c.after.entry? place = c.made.entry? place) : c.IsNewDirectory place := by
  obtain ⟨free, directory⟩ := (c.made_toward.grown.entries place).resolve_left changed
  exact ⟨free, same.trans directory, c.made_toward.toward place changed⟩

/-- How a call ends: with new directories only, or with a file that is put where no directory is. -/
theorem after_cases (c : Call) :
    (¬Disk.Unhindered c.writing.broken c.making c.writing.path c.writing.random ∧
        (∃ fault, c.outcome = .error fault) ∧ c.after = c.made) ∨
      Disk.Unhindered c.writing.broken c.making c.writing.path c.writing.random ∧
        ∃ directory, c.outcome = .ok () ∧
          c.made.locateDirectory c.writing.path.parent = .ok directory ∧
          c.writing.path.name.utf8ByteSize ≤ componentLimit ∧
          c.made.replaceFile directory c.writing.path c.writing.text = .ok c.after := by
  unfold outcome after result
  rcases Disk.writeUnless_cases c.writing.broken c.before c.writing.path c.writing.text
      c.writing.random with
    ⟨hindered, fault, failed⟩ | ⟨unhindered, directory, d', written, located, short, replaced⟩
  · rw [failed]
    exact .inl ⟨hindered, ⟨fault, rfl⟩, rfl⟩
  · rw [written]
    exact .inr ⟨unhindered, directory, rfl, located, short, replaced⟩

theorem filled_of_replaceFile {directory : Place}
    (located : c.made.locateDirectory c.writing.path.parent = .ok directory)
    (short : c.writing.path.name.utf8ByteSize ≤ componentLimit)
    (replaced : c.made.replaceFile directory c.writing.path c.writing.text = .ok c.after) :
    c.Filled (directory ++ [c.writing.path.name]) := by
  obtain ⟨proper, fits, free, after⟩ := Disk.replaceFile_eq_ok.1 replaced
  have there : c.after.entry? (directory ++ [c.writing.path.name]) = some (.file c.writing.text) := by
    rw [← after, Disk.lookup_put _ (Disk.ne_nil_of_free free), if_pos rfl]
  refine ⟨by rw [goal?, located], by rw [Disk.text?, there], fun place other => ?_, fun noLink => ?_,
    fun way => ?_⟩
  · rw [← after, Disk.text?_put_file free, if_neg other, c.made_toward.grown.text?]
  · rw [located, ← after]
    exact (Disk.keepsWays_put_file free noLink).locateDirectory located
  · have noLink : c.after.target? (directory ++ [c.writing.path.name]) = none := by
      rw [Disk.target?, there]
    have itself := Disk.locate_of_parent proper fits (way.trans located) short noLink
    exact Disk.read?_eq_some.2 ⟨_, itself, there⟩

/-- Every call does what it may do. -/
theorem settled (c : Call) : c.Settled := by
  have grown := c.made_toward.grown
  rcases c.after_cases with
    ⟨hindered, ⟨fault, failed⟩, after⟩ | ⟨unhindered, directory, ok, located, short, replaced⟩
  · have error : c.outcome ≠ .ok () := by simp [failed]
    refine ⟨iff_of_false error hindered, fun ok => absurd ok error, fun _ _ place => ?_,
      fun place changed => .inr ?_⟩
    · rw [after, grown.text?]
    · exact isNewDirectory_of_made (after ▸ changed) (by rw [after])
  · have filled := filled_of_replaceFile located short replaced
    obtain ⟨-, -, free, after⟩ := Disk.replaceFile_eq_ok.1 replaced
    refine ⟨iff_of_true ok unhindered, fun _ => ⟨_, filled⟩, fun fault failed => ?_,
      fun place changed => ?_⟩
    · cases ok.symm.trans failed
    by_cases here : place = directory ++ [c.writing.path.name]
    · left
      simp [fills, ok, filled.located, here, Except.isOk, Except.toBool]
    · right
      have same : c.after.entry? place = c.made.entry? place := by
        rw [← after, Disk.lookup_put _ (Disk.ne_nil_of_free free), if_neg here]
      exact isNewDirectory_of_made (same ▸ changed) same

/-- What is at a place after a call. -/
theorem text?_after (c : Call) (place : Place) :
    c.after.text? place = if c.fills place then some c.writing.text else c.before.text? place := by
  have settled := c.settled
  cases outcome : c.outcome with
  | error fault =>
    rw [settled.failed fault outcome, fills, outcome]
    rfl
  | ok =>
    obtain ⟨goal, filled⟩ := settled.ok outcome
    by_cases here : place = goal
    · simp [fills, outcome, filled.located, here, filled.written, Except.isOk, Except.toBool]
    · simp [fills, outcome, filled.located, Ne.symm here, filled.others place here]

end Call

/-! ## One call after the other -/

namespace Disk

/-- The calls for some texts, each on the disk that the one before leaves. -/
def calls (d : Disk) : List Writing → List Call
  | [] => []
  | w :: rest => ⟨w, d⟩ :: calls (Call.after ⟨w, d⟩) rest

/-- The disk after all texts have been written, or not. -/
def after (d : Disk) (writings : List Writing) : Disk :=
  writings.foldl (fun d w => Call.after ⟨w, d⟩) d

end Disk

/-- The text of the last call that filled a place. -/
def lastText? (calls : List Call) (place : Place) : Option String :=
  (calls.filter (·.fills place)).getLast?.map (·.writing.text)

theorem lastText?_cons (c : Call) (calls : List Call) (place : Place) :
    lastText? (c :: calls) place =
      (lastText? calls place).or (if c.fills place then some c.writing.text else none) := by
  unfold lastText?
  rw [List.filter_cons]
  split
  · rw [List.getLast?_cons]
    cases (calls.filter (·.fills place)).getLast? <;> rfl
  · rw [Option.or_none]

/-- However files are written one after the other: each call puts the whole text in its place if
nothing is in the way, with every other file as it was, or it fails with every file as it was; besides
that there are at most new directories on the way. In the end each place has the text of the last call
that succeeded there, or what it had before. -/
theorem writings_settled (d : Disk) (writings : List Writing) :
    (∀ c ∈ d.calls writings, c.Settled) ∧
      ∀ place, (d.after writings).text? place =
        (lastText? (d.calls writings) place).or (d.text? place) := by
  refine ⟨fun c _ => c.settled, fun place => ?_⟩
  -- on the calls in order: the first one says what the others find
  induction writings generalizing d with
  | nil => rfl
  | cons w rest ih =>
    rw [Disk.after, List.foldl_cons, ← Disk.after, ih, Disk.calls, lastText?_cons, Option.or_assoc,
      Call.text?_after]
    split <;> rfl

end CodeOutline.Files
