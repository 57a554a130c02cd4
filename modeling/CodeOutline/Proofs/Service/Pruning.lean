import CodeOutline.Proofs.Remote.Listing
import CodeOutline.Proofs.Service.Made

/-!
# Files that are no longer listed

A new document forgets the files that the listing does not have. A listing leaves out the directories
that the hosting service does not list, so two kinds of files are forgotten: those that are gone, and
those that are still there but only below such directories. `history_pruning` says that no other file
is, and `unlisted_file_is_removed` that one of the second kind is.
-/

namespace CodeOutline.Service

open CodeOutline.Data CodeOutline.Files CodeOutline.Graph CodeOutline.Ingest CodeOutline.Remote
open CodeOutline.Text

/-! ## Listed paths -/

section Listing

variable {remote : Remote} {settings : Settings} {owner name path : String} {paths : List String}

/-- The paths of a listing are those of its files that the language handles. -/
theorem mem_handledPaths {language : Language} {entries : List Client.Entry}
    (h : handledPaths language entries = .ok paths) :
    path ∈ paths ↔ ⟨.text path, "file"⟩ ∈ entries ∧ language.handles path := by
  unfold handledPaths at h
  simp only [andThen_eq_ok, mapM_eq_ok] at h
  obtain ⟨all, hall, h⟩ := h
  cases h
  rw [List.mem_filter]
  refine and_congr_left fun _ => ?_
  have listed : path ∈ all ↔ (.ok path : Except RemoteFault String) ∈ all.map .ok := by
    simp
  rw [listed, ← hall, List.mem_map]
  constructor
  · rintro ⟨⟨place, kind⟩, hmem, hpath⟩
    obtain ⟨hentry, hkind⟩ := List.mem_filter.1 hmem
    cases place with
    | text place =>
      cases hpath
      obtain rfl : kind = "file" := of_decide_eq_true hkind
      exact hentry
    | _ => cases hpath
  · intro hentry
    exact ⟨_, List.mem_filter.2 ⟨hentry, rfl⟩, rfl⟩

theorem listed_ok (h : listed remote settings owner name = .ok paths) :
    ∃ entries, (remote.listing owner name settings.basePath).result = .ok entries ∧
      handledPaths settings.language entries = .ok paths := by
  unfold listed at h
  cases hanswer : answerOf (remote.listing owner name settings.basePath) .listing with
  | error fault =>
    rw [hanswer] at h
    cases h
  | ok entries =>
    rw [hanswer] at h
    exact ⟨entries, answerOf_ok hanswer, mapError_eq_ok.1 h⟩

/-- With the hosting service, the listed paths are those that are reached. -/
theorem mem_listed_ofClient {c : Client} {net : Network} {tree : FileTree} {closed : String → Prop}
    (serves : Serves c net owner name tree closed (trimOf '/' settings.basePath))
    (h : listed (.ofClient c net) settings owner name = .ok paths) :
    path ∈ paths ↔ Reaches tree closed (trimOf '/' settings.basePath) path ∧
      settings.language.handles path := by
  obtain ⟨entries, answer, handled⟩ := listed_ok h
  rw [mem_handledPaths handled, mem_listFiles_iff serves answer]
  refine and_congr_left fun _ => ?_
  constructor
  · rintro ⟨_, e, reaches⟩
    cases e
    exact reaches
  · exact fun reaches => ⟨path, rfl, reaches⟩

end Listing

/-! ## Stored paths -/

/-- Each path at which something is stored is one of a source file. -/
def OnlySources (s : Store) : Prop :=
  ∀ key path, (s.stored? key path).isSome → ∃ language : Language, language.handles path

namespace OnlySources

variable {s t : Store}

theorem of_stored (h : OnlySources s) (same : ∀ key path, t.stored? key path = s.stored? key path) :
    OnlySources t := by
  intro key path stored
  rw [same] at stored
  exact h key path stored

theorem putRepository {draft : RepositoryDraft} {row : Repository} (h : OnlySources s)
    (hs : s.Consistent) (ok : s.putRepository draft = .ok (row, t)) : OnlySources t :=
  h.of_stored fun _ _ => Store.putRepository_stored hs ok

theorem ingested {language : Language} {key : String} {fetch : String → Call String}
    {paths : List String} (h : OnlySources s) (hs : s.Consistent)
    (handled : ∀ path ∈ paths, language.handles path)
    (facts : Ingested language key fetch paths s t) : OnlySources t := by
  intro other path stored
  rw [facts.stored?_eq hs] at stored
  split at stored
  · next here => exact ⟨language, handled path here.2⟩
  · exact h other path stored

theorem pruned (h : OnlySources s) (hs : s.Consistent) (key : String) (paths : List String) :
    OnlySources (pruned key paths s) := by
  intro other path stored
  obtain ⟨hkept, -⟩ := hs.deleteFilesExcept key paths
  rw [Service.pruned, Store.deleteEmptyNamespaces_stored hkept, Store.deleteFilesExcept_stored hs]
    at stored
  split at stored
  · cases stored
  · exact h other path stored

end OnlySources

/-- Whatever becomes of a generation, it stores nothing but source files. -/
theorem Ended.onlySources {remote : Remote} {settings : Settings} {random owner name : String}
    {force : Bool} {toStart : Option Nat} {w : World} {answer : Except Fault Result} {t : Store}
    {d : Disk} (h : Ended remote settings random owner name force toStart w answer t d)
    (hs : w.store.Consistent) (hw : OnlySources w.store) : OnlySources t := by
  have refresh : ∀ {repository u}, refreshed remote owner name w.store = .ok (repository, u) →
      u.Consistent ∧ OnlySources u := by
    intro repository u known
    obtain ⟨draft, -, put⟩ := refreshed_eq_ok.1 known
    exact ⟨(hs.putRepository put).1, hw.putRepository hs put⟩
  have handled : ∀ {repository : Repository} {paths},
      listed remote settings repository.owner repository.name = .ok paths →
      ∀ path ∈ started toStart paths, settings.language.handles path := by
    intro repository paths listing path hpath
    obtain ⟨entries, -, handled⟩ := listed_ok listing
    exact ((mem_handledPaths handled).1 (started_subset toStart paths hpath)).2
  cases h with
  | unknown => exact hw
  | reused known => exact (refresh known).2
  | refused known _ _ facts =>
    obtain ⟨hu, hsources⟩ := refresh known
    rcases facts with ⟨rfl, -⟩ | ⟨paths, listing, ingested⟩
    · exact hsources
    · exact hsources.ingested hu (handled listing) ingested
  | unsaved known _ listing _ facts =>
    obtain ⟨hu, hsources⟩ := refresh known
    obtain ⟨hv, -⟩ := facts.run.consistent hu
    exact (hsources.ingested hu (handled listing) facts).pruned hv _ _
  | made known _ listing _ facts saved =>
    obtain ⟨hu, hsources⟩ := refresh known
    obtain ⟨hv, -⟩ := facts.run.consistent hu
    obtain ⟨hp, -⟩ := (pruned_run _ _ _).consistent hv
    obtain ⟨_, _, _, -, -, saved, -⟩ := exported_eq_ok.1 saved
    exact ((hsources.ingested hu (handled listing) facts).pruned hv _ _).of_stored
      fun _ _ => Store.saveSnapshot_stored hp saved

theorem history_onlySources (generations : List Generation) :
    OnlySources (history generations).world.store := by
  induction generations using List.reverseRecOn with
  | nil =>
    intro key path stored
    cases stored
  | append_singleton generations g ih =>
    rw [history_snoc]
    rcases generate_ended g.remote g.settings g.random g.owner g.name g.force g.toStart
        { (history generations).world with disk := g.disk } with
      ⟨-, -, store, -⟩ | ⟨owner, name, -, -, -, ended⟩
    · exact ih.of_stored fun key path => congrArg (Store.stored? · key path) store
    · exact ended.onlySources (history_recorded generations).consistent ih

/-! ## What is forgotten -/

/-- After a new document, all those of the stored files are left that are reached from the base path
past no closed directory, and no file is stored that is not so reached. -/
theorem history_pruning (generations : List Generation) {g : Generation} {result : Result}
    {c : Client} {net : Network} {owner name : String} {tree : FileTree} {closed : String → Prop}
    (remote : g.remote = .ofClient c net) (howner : g.owner = some owner) (hname : g.name = some name)
    (serves : Serves c net owner name tree closed (trimOf '/' g.settings.basePath))
    (ok : (g.perform (history generations).world).1 = .ok result) (new : result.reused = false)
    (path : String) :
    let s := (history generations).world.store
    let t := (g.perform (history generations).world).2.store
    let reached := Reaches tree closed (trimOf '/' g.settings.basePath) path
    ((s.stored? (slugOf owner name) path).isSome → reached →
        (t.stored? (slugOf owner name) path).isSome) ∧
      ((t.stored? (slugOf owner name) path).isSome → reached) := by
  intro s t reached
  have hs : s.Consistent := (history_recorded generations).consistent
  obtain ⟨repository, paths, report, u, v, made⟩ := exists_made ok new
  obtain ⟨⟨draft, known, ho, hn⟩, -⟩ := made.asks hs
  rw [remote] at known
  obtain ⟨ho', hn'⟩ := requested_ofClient known
  obtain rfl : repository.owner = owner := Option.some.inj (ho.symm.trans (ho'.trans howner))
  obtain rfl : repository.name = name := Option.some.inj (hn.symm.trans (hn'.trans hname))
  have listing := made.listing
  rw [remote] at listing
  have hmem : path ∈ paths ↔ _ := mem_listed_ofClient serves listing
  have stored := made.stored?_eq hs repository.graphKey path
  rw [if_pos rfl] at stored
  change (_ → _ → (t.stored? repository.graphKey path).isSome) ∧
    ((t.stored? repository.graphKey path).isSome → _)
  rw [stored]
  refine ⟨fun before reaches => ?_, fun after => ?_⟩
  · -- There is but one language, so what was a source file then is one now.
    obtain ⟨language, handled⟩ := history_onlySources generations _ _ before
    have listed : path ∈ paths := by
      refine hmem.2 ⟨reaches, ?_⟩
      cases language
      cases g.settings.language
      exact handled
    rw [if_pos listed, Option.isSome_or]
    exact Bool.or_eq_true_iff.2 (.inr before)
  · split at after
    · next listed => exact (hmem.1 listed).1
    · cases after

/-! ## A directory that is not listed -/

/-- A network with a text at each of these addresses. -/
def networkOf (texts : List (String × String)) : Network where
  answer url :=
    match texts.lookup url with
    | some text => .body (text.toList.flatMap String.utf8EncodeChar) (some "text/plain")
    | none => .status 404
  depth := 3

def hostedClient : Client := ⟨none, "h", .int 30⟩

/-- A file, and another one in a directory of its own. -/
def twoFiles : FileTree
  | "src" => [.file "src/A.java", .directory "src/sub"]
  | "src/sub" => [.file "src/sub/B.java"]
  | _ => []

/-- What the hosting service has of the two files at a commit. It does not list the directory. -/
def twoFileTexts (commit : String) : List (String × String) :=
  [("h/repos/acme/tool", "\x7b\x7d"),
    ("h/repos/acme/tool/commits?per_page=1", "[\x7b\"sha\":\"" ++ commit ++ "\"\x7d]"),
    ("h/repos/acme/tool/contents/src",
      "[\x7b\"type\":\"file\",\"path\":\"src/A.java\"\x7d," ++
        "\x7b\"type\":\"dir\",\"path\":\"src/sub\"\x7d]"),
    ("h/repos/acme/tool/contents/src/A.java", "class A \x7b\x7d"),
    ("h/repos/acme/tool/contents/src/sub/B.java", "class B \x7b\x7d")]

/-- What it has of the directory. -/
def directoryText : String × String :=
  ("h/repos/acme/tool/contents/src/sub", "[\x7b\"type\":\"file\",\"path\":\"src/sub/B.java\"\x7d]")

def Generation.ofTexts (texts : List (String × String)) : Generation where
  remote := .ofClient hostedClient (networkOf texts)
  settings := { basePath := "src" }
  random := ""
  owner := some "acme"
  name := some "tool"
  force := false
  toStart := none
  disk := {}

/-- Two commits of the same files. At the second one the directory is not listed. -/
def closedLater : Generation × Generation :=
  (.ofTexts (directoryText :: twoFileTexts "c0ffee"), .ofTexts (twoFileTexts "decade"))

/-- The files before the second generation, its answer, and the files after it. -/
theorem closedLater_run :
    ((history [closedLater.1]).world.store.files.rows.map (fun f => (f.repository, f.path)),
      (closedLater.2.perform (history [closedLater.1]).world).1.toOption.map (·.reused),
      (closedLater.2.perform (history [closedLater.1]).world).2.store.files.rows.map
        fun f => (f.repository, f.path)) =
    ([("acme/tool", "src/A.java"), ("acme/tool", "src/sub/B.java")], some false,
      [("acme/tool", "src/A.java")]) := by
  decide +kernel

theorem closedLater_stored (path : String) (h : path ∈ ["src/A.java", "src/sub/B.java"]) :
    ((history [closedLater.1]).world.store.stored? "acme/tool" path).isSome := by
  obtain ⟨before, -⟩ := Prod.mk.inj closedLater_run
  rw [Store.isSome_stored?_iff, before]
  simpa using h

theorem exists_closedLater :
    ∃ result, (closedLater.2.perform (history [closedLater.1]).world).1 = .ok result ∧
      result.reused = false := by
  obtain ⟨-, rest⟩ := Prod.mk.inj closedLater_run
  exact exists_new (Prod.mk.inj rest).1

/-- The directories of the tree are its base and the one in it. -/
theorem twoFiles_directories {d : String} (h : DirectoryBelow twoFiles "src" d) :
    d = "src" ∨ d = "src/sub" := by
  induction h with
  | self => exact .inl rfl
  | inside _ mem ih =>
    rcases ih with rfl | rfl
    · simp only [twoFiles, List.mem_cons, reduceCtorEq, false_or, List.not_mem_nil, or_false,
        Item.directory.injEq] at mem
      exact .inr mem
    · simp [twoFiles] at mem

theorem twoFileTexts_serves :
    Serves hostedClient (networkOf (twoFileTexts "decade")) "acme" "tool" twoFiles
      (· = "src/sub") "src" where
  lists d below opened := by
    rw [(twoFiles_directories below).resolve_right opened]
    decide +kernel
  refuses d _ closed := by
    rw [closed]
    decide +kernel

theorem twoFiles_reaches {path : String} :
    Reaches twoFiles (· = "src/sub") "src" path ↔ path = "src/A.java" := by
  constructor
  · intro reaches
    cases reaches with
    | here _ mem =>
      simpa only [twoFiles, List.mem_cons, reduceCtorEq, List.not_mem_nil, or_false,
        Item.file.injEq] using mem
    | inside _ mem rest =>
      simp only [twoFiles, List.mem_cons, reduceCtorEq, false_or, List.not_mem_nil, or_false,
        Item.directory.injEq] at mem
      exact absurd mem (reaches_iff.1 rest).1
  · rintro rfl
    exact .here (by decide) (List.mem_cons_self ..)

/-- The file that is reached stays, and the other one goes. -/
theorem history_pruning_of_closed_directory :
    ∃ result, (closedLater.2.perform (history [closedLater.1]).world).1 = .ok result ∧
      result.reused = false ∧
      ((closedLater.2.perform (history [closedLater.1]).world).2.store.stored? "acme/tool"
        "src/A.java").isSome ∧
      ¬ ((closedLater.2.perform (history [closedLater.1]).world).2.store.stored? "acme/tool"
        "src/sub/B.java").isSome := by
  have base : trimOf '/' closedLater.2.settings.basePath = "src" := by decide +kernel
  have serves : Serves hostedClient (networkOf (twoFileTexts "decade")) "acme" "tool" twoFiles
      (· = "src/sub") (trimOf '/' closedLater.2.settings.basePath) := by
    rw [base]
    exact twoFileTexts_serves
  obtain ⟨result, ok, new⟩ := exists_closedLater
  have pruning := history_pruning [closedLater.1] rfl rfl rfl serves ok new
  simp only [base, twoFiles_reaches] at pruning
  have before := closedLater_stored "src/A.java" (by decide)
  have kept := (pruning "src/A.java").1 before rfl
  have gone := mt (pruning "src/sub/B.java").2 (by decide)
  exact ⟨result, ok, new, kept, gone⟩

/-- A file that is still in the tree is gone. -/
theorem unlisted_file_is_removed :
    ∃ result, (closedLater.2.perform (history [closedLater.1]).world).1 = .ok result ∧
      result.reused = false ∧
      Serves hostedClient (networkOf (twoFileTexts "decade")) "acme" "tool" twoFiles
        (· = "src/sub") "src" ∧
      ¬ ∀ path, ((history [closedLater.1]).world.store.stored? "acme/tool" path).isSome →
        Reaches twoFiles (fun _ => False) "src" path →
        ((closedLater.2.perform (history [closedLater.1]).world).2.store.stored? "acme/tool"
          path).isSome := by
  obtain ⟨result, ok, new⟩ := exists_closedLater
  refine ⟨result, ok, new, twoFileTexts_serves, fun stays => ?_⟩
  have before := closedLater_stored "src/sub/B.java" (by decide)
  have there : Reaches twoFiles (fun _ => False) "src" "src/sub/B.java" :=
    .inside not_false (by simp [twoFiles] : .directory "src/sub" ∈ twoFiles "src")
      (.here not_false (by simp [twoFiles]))
  have after := stays _ before there
  obtain ⟨-, rest⟩ := Prod.mk.inj closedLater_run
  rw [Store.isSome_stored?_iff, (Prod.mk.inj rest).2] at after
  simp at after

end CodeOutline.Service
