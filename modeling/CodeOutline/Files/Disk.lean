import CodeOutline.Files.Path
import CodeOutline.Text.Quoted

/-!
# The disk

Files, directories and symbolic links, by place. The root is always a directory.

`Disk.resolve` follows links and `..` the way a name is made canonical, whether or not the file
exists. `Disk.locate` does so the way an operation finds its file: whatever is gone through must be a
directory.

There are no permissions: whatever there is may be read, written and gone through. A walk ends at a
link that leads back to itself, never because it has followed too many of them. Only `locate` measures
the path that it is given; `resolve` takes a path of any length, and links may be nested to any depth.
-/

namespace CodeOutline.Files

open CodeOutline.Text

/-- What stands at a place. -/
inductive Entry where
  | file (text : String)
  | directory
  | link (target : String)
  deriving Repr, DecidableEq

/-- The number of components that following the entry adds to a path, and one for the entry. -/
def Entry.span : Entry → Nat
  | .link target => (componentsOf target).length + 1
  | _ => 1

/-- Why the disk refuses an operation. -/
inductive Errno where
  | notFound
  | busy
  | exists
  | notDirectory
  | isDirectory
  | nameTooLong
  | loop
  deriving Repr, DecidableEq

def Errno.code : Errno → Nat
  | notFound => 2
  | busy => 16
  | .exists => 17
  | notDirectory => 20
  | isDirectory => 21
  | nameTooLong => 36
  | loop => 40

def Errno.text : Errno → String
  | notFound => "No such file or directory"
  | busy => "Device or resource busy"
  | .exists => "File exists"
  | notDirectory => "Not a directory"
  | isDirectory => "Is a directory"
  | nameTooLong => "File name too long"
  | loop => "Too many levels of symbolic links"

/-- The greatest length of a component, in octets. -/
def componentLimit : Nat := 255

/-- The greatest length of a path, in octets. -/
def pathLimit : Nat := 4095

/-- What stands where. A place without an entry holds nothing. -/
structure Disk where
  entries : List (Place × Entry) := []
  /-- The working directory. -/
  cwd : Place := []
  deriving Repr

namespace Disk

/-- What is at a place; links are not followed. -/
def entry? (d : Disk) (place : Place) : Option Entry :=
  if place = [] then some .directory else (d.entries.find? (·.1 = place)).map (·.2)

/-- The disk with an entry put at a place. -/
def put (d : Disk) (place : Place) (entry : Entry) : Disk :=
  if d.entries.any (·.1 = place) then
    { d with entries := d.entries.map fun e => if e.1 = place then (place, entry) else e }
  else { d with entries := d.entries ++ [(place, entry)] }

/-- The target of a link. -/
def target? (d : Disk) (place : Place) : Option String :=
  match d.entry? place with
  | some (.link target) => some target
  | _ => none

/-- The span of an entry that is not among the opened ones. -/
def spanUnless (opened : List Place) (e : Place × Entry) : Nat :=
  if opened.contains e.1 then 0 else e.2.span

/-- How far links that are not among the opened ones can still lead. -/
def unopened (d : Disk) (opened : List Place) : Nat :=
  d.entries.foldr (fun e length => spanUnless opened e + length) 0

theorem mem_of_target? {d : Disk} {place : Place} {target : String}
    (h : d.target? place = some target) : (place, Entry.link target) ∈ d.entries := by
  unfold target? entry? at h
  by_cases hr : place = []
  · simp [hr] at h
  · simp only [hr, if_false] at h
    cases hf : d.entries.find? (·.1 = place) with
    | none => simp [hf] at h
    | some e =>
      have hplace : e.1 = place := by simpa using List.find?_some hf
      have hlink : e.2 = .link target := by
        rw [hf, Option.map_some] at h
        split at h
        · next e' => cases h; exact Option.some.inj e'
        · cases h
      rw [← hplace, ← hlink]
      exact List.mem_of_find?_eq_some hf

theorem spanUnless_cons_le (place : Place) (opened : List Place) (e : Place × Entry) :
    spanUnless (place :: opened) e ≤ spanUnless opened e := by
  unfold spanUnless
  rw [List.contains_cons]
  cases opened.contains e.1 with
  | true => simp
  | false =>
    rw [if_neg Bool.false_ne_true]
    split
    · exact Nat.zero_le _
    · exact Nat.le_refl _

theorem foldr_spanUnless_cons_le (place : Place) (opened : List Place)
    (entries : List (Place × Entry)) :
    entries.foldr (fun e length => spanUnless (place :: opened) e + length) 0 ≤
      entries.foldr (fun e length => spanUnless opened e + length) 0 := by
  induction entries with
  | nil => exact Nat.le_refl 0
  | cons e rest ih =>
    simp only [List.foldr_cons]
    exact Nat.add_le_add (spanUnless_cons_le place opened e) ih

/-- A link that is opened takes away more than its target adds. -/
theorem unopened_cons_lt {d : Disk} {place : Place} {target : String} {opened : List Place}
    (h : d.target? place = some target) (ho : opened.contains place = false) :
    d.unopened (place :: opened) + (componentsOf target).length < d.unopened opened := by
  have mem := mem_of_target? h
  unfold unopened
  generalize d.entries = entries at mem ⊢
  induction entries with
  | nil => cases mem
  | cons e rest ih =>
    simp only [List.foldr_cons]
    rcases List.mem_cons.1 mem with rfl | mem
    · have others := foldr_spanUnless_cons_le place opened rest
      have now : spanUnless (place :: opened) (place, .link target) = 0 := by
        simp [spanUnless]
      have before : spanUnless opened (place, .link target) = (componentsOf target).length + 1 := by
        rw [spanUnless, ho]
        rfl
      omega
    · have first := spanUnless_cons_le place opened e
      have others := ih mem
      omega

/-- Whether a link's target is read from the root on. -/
def isRooted (target : String) : Bool := target.toList.head? = some '/'

/-- The pieces between slashes behind the component that `count` others follow. -/
def piecesBehind (count : Nat) : List String → List String
  | [] => []
  | _ :: rest => if rest.countP addsComponent = count then rest else piecesBehind count rest

/-- The components of a link's target that have not been followed, put behind the place that has been
reached. Where two slashes are in front of them they are read from the root on instead. -/
def attach (target : String) (reached : Place) (left : List String) : Place :=
  match piecesBehind left.length (pieces '/' target) with
  | "" :: _ :: _ => left
  | _ => reached ++ left

/-- Follows `rest` from the place `done` on. `opened` holds the links being followed; one that leads
back to itself stops the walk, and the error is the place that has been reached, with the components
that are left. -/
def resolveFrom (d : Disk) (opened : List Place) (done : Place) (rest : List String) :
    Except (Place × List String) Place :=
  match rest with
  | [] => .ok done
  | part :: rest =>
    if part = ".." then d.resolveFrom opened done.dropLast rest
    else
      match _h : d.target? (done ++ [part]) with
      | none => d.resolveFrom opened (done ++ [part]) rest
      | some target =>
        if _ho : opened.contains (done ++ [part]) then .error (done ++ [part], rest)
        else
          match d.resolveFrom ((done ++ [part]) :: opened) (if isRooted target then [] else done)
              (componentsOf target) with
          | .ok reached => d.resolveFrom opened reached rest
          | .error (reached, left) => .error (attach target reached left, rest)
termination_by d.unopened opened + rest.length
decreasing_by
  · simp
  · simp
  · have := unopened_cons_lt _h (by simpa using _ho)
    omega
  · simp

/-- Follows `rest` like `resolveFrom`, where whatever is gone through must be a directory and its
components must not be too long. The last component need not exist. -/
def locateFrom (d : Disk) (opened : List Place) (done : Place) (rest : List String) :
    Except Errno Place :=
  match rest with
  | [] => .ok done
  | part :: rest =>
    match d.entry? done with
    | none => .error .notFound
    | some (.file _) => .error .notDirectory
    | some _ =>
      if part = ".." then d.locateFrom opened done.dropLast rest
      else if componentLimit < part.utf8ByteSize then .error .nameTooLong
      else
        match _h : d.target? (done ++ [part]) with
        | none => d.locateFrom opened (done ++ [part]) rest
        | some target =>
          if _ho : opened.contains (done ++ [part]) then .error .loop
          else
            match d.locateFrom ((done ++ [part]) :: opened) (if isRooted target then [] else done)
                (componentsOf target) with
            | .ok reached => d.locateFrom opened reached rest
            | .error errno => .error errno
termination_by d.unopened opened + rest.length
decreasing_by
  · simp
  · simp
  · have := unopened_cons_lt _h (by simpa using _ho)
    omega
  · simp

/-- The place that a path names, with all links followed. -/
def locate (d : Disk) (p : Path) : Except Errno Place :=
  if pathLimit < p.text.utf8ByteSize then .error .nameTooLong
  else d.locateFrom [] [] (p.placeFrom d.cwd)

/-- The directory that a path names. -/
def locateDirectory (d : Disk) (p : Path) : Except Errno Place :=
  match d.locate p with
  | .error errno => .error errno
  | .ok place =>
    match d.entry? place with
    | some .directory => .ok place
    | some _ => .error .notDirectory
    | none => .error .notFound

/-- Whether the path leads to a directory. -/
def isDirectory (d : Disk) (p : Path) : Bool :=
  (d.locateDirectory p).isOk

/-- Something is at the path, with all links followed. -/
def hasEntry (d : Disk) (p : Path) : Bool :=
  match d.locate p with
  | .ok place => (d.entry? place).isSome
  | .error _ => false

/-- The text of the file at a path, with all links followed. -/
def read? (d : Disk) (p : Path) : Option String :=
  match d.locate p with
  | .ok place => match d.entry? place with | some (.file text) => some text | _ => none
  | .error _ => none

/-- Why a path cannot be made canonical. -/
inductive ResolveFault where
  | nullCharacter
  /-- A link leads back to itself. -/
  | loop (place : Place)
  deriving Repr, DecidableEq

def ResolveFault.message : ResolveFault → String
  | nullCharacter => "embedded null byte"
  | loop place => s!"Symlink loop from {quoted place.text}"

/-- The canonical form of an absolute place, whether or not something is there. Where links lead back
to themselves it is what is left of the path, if that can be reached. -/
def resolve (d : Disk) (place : Place) : Except ResolveFault Place :=
  if place.any fun part => part.toList.contains '\x00' then .error .nullCharacter
  else
    match d.resolveFrom [] [] place with
    | .ok reached => .ok reached
    | .error (reached, left) =>
      let rest := Place.normalize (reached ++ left)
      match d.locateFrom [] [] rest with
      | .error .loop => .error (.loop rest)
      | _ => .ok rest

end Disk

end CodeOutline.Files
