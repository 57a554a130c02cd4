import CodeOutline.Remote.Client

/-!
# Listing a remote tree

The files of a repository as the hosting service serves them: directory by directory, where some
directories cannot be listed. The listing of a base path, if there is one, has exactly the files that
can be reached from there without passing a closed directory (`mem_listFiles_iff`).

A tree is given by what each directory contains. The descent of the client is bounded by a depth, and
the induction is on that bound: a listing that succeeds has never come to it.
-/

namespace CodeOutline.Remote

open CodeOutline.Data CodeOutline.Text

/-! ## Calls -/

/-- A call after another one succeeds only where both do. -/
theorem bind_result {α β : Type} {call : Call α} {next : α → Call β} {b : β}
    (h : (call >>= next).result = .ok b) : ∃ a, call.result = .ok a ∧ (next a).result = .ok b := by
  change (call.andThen next).result = .ok b at h
  unfold Call.andThen at h
  cases hresult : call.result with
  | error fault =>
    rw [hresult] at h
    cases h
  | ok a =>
    rw [hresult] at h
    exact ⟨a, rfl, h⟩

/-- A call with nothing to follow is the call itself. -/
theorem andThen_pure {α : Type} (c : Call α) : c.andThen (fun a => ⟨.ok a, [], []⟩) = c := by
  obtain ⟨result, requests, events⟩ := c
  cases result <;> simp [Call.andThen]

theorem pure_andThen {α β : Type} (a : α) (f : α → Call β) :
    (⟨.ok a, [], []⟩ : Call α).andThen f = f a := by
  simp [Call.andThen]

theorem andThen_assoc {α β γ : Type} (c : Call α) (f : α → Call β) (g : β → Call γ) :
    (c.andThen f).andThen g = c.andThen fun a => (f a).andThen g := by
  obtain ⟨result, requests, events⟩ := c
  cases result with
  | error fault => rfl
  | ok a =>
    simp only [Call.andThen]
    cases (f a).result <;> simp

instance : LawfulMonad Call := LawfulMonad.mk' Call andThen_pure pure_andThen andThen_assoc

/-! ## Trees -/

/-- What a directory contains, under its path in the repository. -/
inductive Item where
  | file (path : String)
  | directory (path : String)
  deriving DecidableEq

/-- The items at a path, for what the service calls their kind. Links and the like are left out. -/
def itemsOf (kind : Option Datum) (path : String) : List Item :=
  match kind with
  | some (.text "file") => [.file path]
  | some (.text "dir") => [.directory path]
  | _ => []

/-- The items of an entry; `none` if it is no entry at all. -/
def itemsOfEntry? : Datum → Option (List Item)
  | .map fields =>
    match Datum.get? "path" fields with
    | some (.text path) => some (itemsOf (Datum.get? "type" fields) path)
    | _ => none
  | _ => none

/-- The items of an answer; `none` if it is no listing. -/
def itemsOfAnswer? (answer : Except RemoteFault Datum) : Option (List Item) :=
  match answer.bind Client.entriesOf with
  | .ok entries => (entries.mapM itemsOfEntry?).map List.flatten
  | .error _ => none

/-- The answer is a failure that callers are prepared for. -/
def isRefusal {α : Type} : Except RemoteFault α → Bool
  | .error (.fetch _) => true
  | _ => false

/-- What each directory contains. -/
abbrev FileTree := String → List Item

variable {tree : FileTree} {closed : String → Prop}

/-- The file is below the directory, and no directory from there to the file is closed. -/
inductive Reaches (tree : FileTree) (closed : String → Prop) : String → String → Prop where
  | here {d path : String} (opened : ¬ closed d) (mem : .file path ∈ tree d) : Reaches tree closed d path
  | inside {d e path : String} (opened : ¬ closed d) (mem : .directory e ∈ tree d)
      (rest : Reaches tree closed e path) : Reaches tree closed d path

/-- A directory that is the given one or below it. -/
inductive DirectoryBelow (tree : FileTree) (d : String) : String → Prop where
  | self : DirectoryBelow tree d d
  | inside {e f : String} (above : DirectoryBelow tree d e) (mem : .directory f ∈ tree e) :
      DirectoryBelow tree d f

/-- What an item of an open directory leads to. -/
def Item.LeadsTo (tree : FileTree) (closed : String → Prop) : Item → String → Prop
  | file path, other => other = path
  | directory d, other => Reaches tree closed d other

theorem reaches_iff {d path : String} :
    Reaches tree closed d path ↔
      ¬ closed d ∧ ∃ item ∈ tree d, item.LeadsTo tree closed path := by
  constructor
  · intro h
    cases h with
    | here opened mem => exact ⟨opened, _, mem, rfl⟩
    | inside opened mem rest => exact ⟨opened, _, mem, rest⟩
  · rintro ⟨opened, item, mem, leads⟩
    cases item with
    | file p =>
      obtain rfl : path = p := leads
      exact .here opened mem
    | directory e => exact .inside opened mem leads

/-! ## Descent -/

variable {c : Client} {net : Network} {owner name : String}

/-- The service answers for the directories from `base` on as the tree says, but for the closed ones,
for which it fails. -/
structure Serves (c : Client) (net : Network) (owner name : String) (tree : FileTree)
    (closed : String → Prop) (base : String) : Prop where
  lists : ∀ d, DirectoryBelow tree base d → ¬ closed d →
    itemsOfAnswer? (c.getJson net (c.repositoryUrl owner name ["contents", d])).result =
      some (tree d)
  refuses : ∀ d, DirectoryBelow tree base d → closed d →
    isRefusal (c.getJson net (c.repositoryUrl owner name ["contents", d])).result

theorem isRefusal_iff {α : Type} {answer : Except RemoteFault α} :
    isRefusal answer ↔ ∃ fault, answer = .error (.fetch fault) := by
  unfold isRefusal
  split
  · simp
  · next other =>
    simp only [Bool.false_eq_true, false_iff, not_exists]
    exact other

theorem itemsOf_eq_nil {kind : Option Datum} {path : String} (dir : kind ≠ some (.text "dir"))
    (file : kind ≠ some (.text "file")) : itemsOf kind path = [] := by
  unfold itemsOf
  split
  · exact absurd rfl file
  · exact absurd rfl dir
  · rfl

theorem itemsOfEntry?_eq_some {entry : Datum} {items : List Item}
    (h : itemsOfEntry? entry = some items) :
    ∃ fields path, entry = .map fields ∧ Datum.get? "path" fields = some (.text path) ∧
      items = itemsOf (Datum.get? "type" fields) path := by
  unfold itemsOfEntry? at h
  split at h
  · next fields =>
    split at h
    · next path hpath =>
      cases h
      exact ⟨fields, path, rfl, hpath, rfl⟩
    · cases h
  · cases h

theorem itemsOfAnswer?_eq_some {answer : Except RemoteFault Datum} {items : List Item}
    (h : itemsOfAnswer? answer = some items) :
    ∃ d entries lists, answer = .ok d ∧ Client.entriesOf d = .ok entries ∧
      entries.mapM itemsOfEntry? = some lists ∧ lists.flatten = items := by
  unfold itemsOfAnswer? at h
  cases answer with
  | error fault => cases h
  | ok d =>
    rw [Except.bind] at h
    cases hentries : Client.entriesOf d with
    | error fault =>
      rw [hentries] at h
      cases h
    | ok entries =>
      rw [hentries] at h
      obtain ⟨lists, hlists, hflat⟩ := Option.map_eq_some_iff.1 h
      exact ⟨d, entries, lists, rfl, hentries, hlists, hflat⟩

theorem contentsOf_text (c : Client) (net : Network) (owner name d : String) (isRoot : Bool) :
    (c.contentsOf net owner name (.text d) isRoot).result =
      match (c.getJson net (c.repositoryUrl owner name ["contents", d])).result with
      | .ok answer => .ok (some answer)
      | .error (.fetch fault) => if isRoot then .error (.fetch fault) else .ok none
      | .error fault => .error fault := by
  have request : (do
      let parts ← Call.ofExcept (Client.pathParts (.text d))
      return some (← c.getJson net (c.repositoryUrl owner name ("contents" :: parts))) :
        Call (Option Datum)).result =
      (c.getJson net (c.repositoryUrl owner name ["contents", d])).result.map some := by
    change (Call.andThen ⟨.ok [d], [], []⟩ fun parts =>
      (c.getJson net (c.repositoryUrl owner name ("contents" :: parts))).andThen _).result = _
    simp only [Call.andThen]
    cases (c.getJson net (c.repositoryUrl owner name ["contents", d])).result <;> rfl
  unfold Client.contentsOf Call.orElse
  dsimp only
  rw [request]
  cases hanswer : (c.getJson net (c.repositoryUrl owner name ["contents", d])).result with
  | ok answer =>
    rw [hanswer] at request
    exact request
  | error fault =>
    rw [hanswer] at request
    cases fault with
    | fetch fault =>
      cases isRoot <;> rfl
    | _ => exact request

/-- The files that the entries of a directory lead to are those that its items lead to. -/
theorem mem_flatten_of_entries {f : Datum → Call (List Client.Entry)}
    {P : Item → Client.Entry → Prop} {entries : List Datum} {lists : List (List Item)}
    {found : List (List Client.Entry)} (named : entries.mapM itemsOfEntry? = some lists)
    (ok : (entries.mapM f).result = .ok found)
    (each : ∀ entry items l, itemsOfEntry? entry = some items → items ∈ lists →
      (f entry).result = .ok l → ∀ x, x ∈ l ↔ ∃ item ∈ items, P item x) (x : Client.Entry) :
    x ∈ found.flatten ↔ ∃ item ∈ lists.flatten, P item x := by
  induction entries generalizing lists found with
  | nil =>
    rw [List.mapM_nil] at named ok
    cases named
    cases ok
    simp
  | cons entry rest ih =>
    rw [List.mapM_cons] at named ok
    obtain ⟨items, hitems, named⟩ := Option.bind_eq_some_iff.1 named
    obtain ⟨lists', hlists, named⟩ := Option.bind_eq_some_iff.1 named
    cases named
    obtain ⟨l, hl, ok⟩ := bind_result ok
    obtain ⟨others, hothers, ok⟩ := bind_result ok
    cases ok
    have own := each entry items l hitems (List.mem_cons_self ..) hl x
    have rest := ih hlists hothers fun entry items l h hmem =>
      each entry items l h (List.mem_cons_of_mem _ hmem)
    simp only [List.flatten_cons, List.mem_append, own, rest, or_and_right, exists_or]

/-- The entries that a listing has for the files at the given paths. -/
def IsEntryOf (P : String → Prop) (x : Client.Entry) : Prop :=
  ∃ path, x = ⟨.text path, "file"⟩ ∧ P path

theorem isEntryOf_eq {path : String} {x : Client.Entry} :
    IsEntryOf (· = path) x ↔ x = ⟨.text path, "file"⟩ := by
  constructor
  · rintro ⟨_, rfl, rfl⟩
    rfl
  · rintro rfl
    exact ⟨path, rfl, rfl⟩

theorem mem_filesBelow_iff {base : String} (h : Serves c net owner name tree closed base)
    {depth : Nat} {d : String} (hd : DirectoryBelow tree base d) {isRoot : Bool}
    {found : List Client.Entry}
    (ok : (c.filesBelow net owner name depth (.text d) isRoot).result = .ok found)
    (x : Client.Entry) : x ∈ found ↔ IsEntryOf (Reaches tree closed d) x := by
  induction depth generalizing d isRoot found x with
  | zero => cases ok
  | succ depth ih =>
    unfold Client.filesBelow at ok
    obtain ⟨contents, hcontents, ok⟩ := bind_result ok
    rw [contentsOf_text] at hcontents
    by_cases shut : closed d
    · obtain ⟨fault, refused⟩ := isRefusal_iff.1 (h.refuses d hd shut)
      rw [refused] at hcontents
      have nothing : found = [] := by
        cases isRoot with
        | true => cases hcontents
        | false =>
          cases hcontents
          cases ok
          rfl
      rw [nothing]
      constructor
      · intro hx
        cases hx
      · rintro ⟨path, -, reaches⟩
        exact absurd shut (reaches_iff.1 reaches).1
    · obtain ⟨answer, entries, lists, answered, entered, named, flat⟩ :=
        itemsOfAnswer?_eq_some (h.lists d hd shut)
      rw [answered] at hcontents
      cases hcontents
      obtain ⟨_, hentries, ok⟩ := bind_result ok
      cases hentries.symm.trans entered
      obtain ⟨found', hfound, ok⟩ := bind_result ok
      cases ok
      have leads := mem_flatten_of_entries (P := fun item => IsEntryOf (item.LeadsTo tree closed))
        named hfound (fun entry items l hitems hmem hl y => ?_) x
      · rw [leads, flat]
        constructor
        · rintro ⟨item, hmem, path, rfl, led⟩
          exact ⟨path, rfl, reaches_iff.2 ⟨shut, item, hmem, led⟩⟩
        · rintro ⟨path, rfl, reaches⟩
          obtain ⟨-, item, hmem, led⟩ := reaches_iff.1 reaches
          exact ⟨item, hmem, path, rfl, led⟩
      · have within : ∀ item ∈ items, item ∈ tree d := fun item hitem =>
          flat ▸ List.mem_flatten_of_mem hmem hitem
        obtain ⟨fields, path, rfl, hpath, rfl⟩ := itemsOfEntry?_eq_some hitems
        simp only [hpath, Option.getD_some] at hl
        generalize Datum.get? "type" fields = kind at hl within
        by_cases dir : kind = some (.text "dir")
        · cases dir
          simp only [itemsOf, List.mem_singleton, exists_eq_left, forall_eq] at within ⊢
          exact ih (hd.inside within) hl y
        by_cases file : kind = some (.text "file")
        · cases file
          cases hl
          simp only [itemsOf, List.mem_singleton, exists_eq_left]
          exact isEntryOf_eq.symm
        · rw [itemsOf_eq_nil dir file]
          split at hl
          · exact absurd rfl dir
          · exact absurd rfl file
          · cases hl
            simp

/-- The listing of a base path has the files that are reached from there, and nothing else. -/
theorem mem_listFiles_iff {basePath : String} {found : List Client.Entry}
    (h : Serves c net owner name tree closed (trimOf '/' basePath))
    (ok : (c.listFiles net owner name basePath).result = .ok found) (x : Client.Entry) :
    x ∈ found ↔ IsEntryOf (Reaches tree closed (trimOf '/' basePath)) x := by
  unfold Client.listFiles at ok
  obtain ⟨all, hall, ok⟩ := bind_result ok
  obtain ⟨_, -, ok⟩ := bind_result ok
  cases ok
  exact mem_filesBelow_iff h .self hall x

end CodeOutline.Remote
