import CodeOutline.Proofs.Graph.Document
import CodeOutline.Proofs.Service.Generated

/-!
# Histories of generations

Any number of generations on one database, each with a remote and a disk of its own. `Recorded` says
what the documents of the store have to do with what the generations answered: the documents of a
repository are those that its successful generations have made, newest first, and the current one is of
the last success. One generation keeps this whatever becomes of it (`Recorded.snoc`), and so it holds
of every history (`history_documents`).
-/

namespace CodeOutline.Service

open CodeOutline.Files CodeOutline.Graph CodeOutline.Remote

/-- A generation: what is asked for, the remote that answers, and the disk that it meets. -/
structure Generation where
  remote : Remote
  settings : Settings
  random : String
  owner : Option String
  name : Option String
  force : Bool
  toStart : Option Nat
  disk : Disk

/-- What the generation comes to, whatever the disk was before. -/
def Generation.perform (g : Generation) (w : World) : Except Fault Result × World :=
  generate g.remote g.settings g.random g.owner g.name g.force g.toStart { w with disk := g.disk }

/-- Generations with their results, and the world after them. -/
structure History where
  world : World := {}
  results : List (Generation × Except Fault Result) := []

/-- The history with one more generation. -/
def History.extend (h : History) (g : Generation) : History :=
  let (result, world) := g.perform h.world
  ⟨world, h.results ++ [(g, result)]⟩

/-- What comes of generations one after the other, from an empty database. -/
def history (generations : List Generation) : History :=
  generations.foldl History.extend {}

/-- A success of a generation, with the commit that the remote named. -/
structure Success where
  commit : String
  result : Result

/-- The success of a generation for the repository of that owner and name. -/
def successOf (owner name : String) : Generation × Except Fault Result → Option Success
  | (_, .error _) => none
  | (g, .ok result) =>
    match requested g.remote g.owner g.name with
    | .error _ => none
    | .ok draft =>
      if draft.owner = some owner ∧ draft.name = some name then some ⟨draft.commit, result⟩ else none

/-- The successes for a repository, oldest first. -/
def successes (results : List (Generation × Except Fault Result)) (owner name : String) :
    List Success :=
  results.filterMap (successOf owner name)

/-- The documents in the store are those of the successes. -/
structure Recorded (results : List (Generation × Except Fault Result)) (s : Store) : Prop where
  consistent : s.Consistent
  current : ∀ owner name, ((s.currentOf owner name).map fun d => (d.payload, d.commit)) =
    (successes results owner name).getLast?.map fun e => (e.result.text, e.commit)
  documents : ∀ owner name,
    ((s.documentsOf owner name).map fun d => (d.payload, d.commit, d.exportPath)) =
      (((successes results owner name).filter (!·.result.reused)).map fun e =>
        (e.result.text, e.commit, e.result.outputPath)).reverse

theorem history_snoc (generations : List Generation) (g : Generation) :
    history (generations ++ [g]) = (history generations).extend g := by
  rw [history, List.foldl_append]
  rfl

theorem successes_snoc (results : List (Generation × Except Fault Result))
    (entry : Generation × Except Fault Result) (owner name : String) :
    successes (results ++ [entry]) owner name =
      successes results owner name ++ (successOf owner name entry).toList := by
  unfold successes
  rw [List.filterMap_append]
  cases he : successOf owner name entry <;> simp [he]

/-- A success counts for the repository that the remote's answer names, and for no other. -/
theorem successOf_ok {g : Generation} {draft : RepositoryDraft} {result : Result} {r : Repository}
    (known : requested g.remote g.owner g.name = .ok draft) (howner : draft.owner = some r.owner)
    (hname : draft.name = some r.name) (owner name : String) :
    successOf owner name (g, .ok result) =
      if (r.owner, r.name) = (owner, name) then some ⟨draft.commit, result⟩ else none := by
  simp only [successOf, known, howner, hname, Option.some.injEq, Prod.mk.injEq]

/-- Demotion changes nothing of what is recorded about a document. -/
theorem shown_demotedBy (id : Id) (d : Snapshot) :
    ((Store.demotedBy id d).payload, (Store.demotedBy id d).commit,
      (Store.demotedBy id d).exportPath) = (d.payload, d.commit, d.exportPath) := by
  obtain ⟨-, hcommit, hpayload, hpath⟩ := Store.demotedBy_same id d
  rw [← hcommit, ← hpayload, ← hpath]

theorem recorded_empty : Recorded [] {} where
  consistent := Store.consistent_empty
  current _ _ := rfl
  documents _ _ := rfl

namespace Recorded

variable {results : List (Generation × Except Fault Result)} {s t u : Store} {g : Generation}

/-- What is known about repositories may change without any change to what is recorded. -/
theorem put (h : Recorded results s) {draft : RepositoryDraft} {row : Repository}
    (ok : s.putRepository draft = .ok (row, t)) : Recorded results t := by
  obtain ⟨-, -, -, -, -, same⟩ := Store.putRepository_documents h.consistent ok
  refine ⟨(h.consistent.putRepository ok).1, fun owner name => ?_, fun owner name => ?_⟩
  · rw [(same owner name).1, h.current]
  · rw [(same owner name).2, h.documents]

/-- Facts may change without any change to what is recorded. -/
theorem facts (h : Recorded results s) {key : String} (run : Store.FactRun key s t) :
    Recorded results t := by
  refine ⟨(run.consistent h.consistent).1, fun owner name => ?_, fun owner name => ?_⟩
  · have same := congrArg (Option.map fun d => (d.payload, d.commit)) (run.documents owner name).1
    rw [Option.map_map, Option.map_map] at same
    exact Eq.trans same (h.current owner name)
  · have same := congrArg (List.map fun d => (d.payload, d.commit, d.exportPath))
      (run.documents owner name).2
    rw [List.map_map, List.map_map] at same
    exact Eq.trans same (h.documents owner name)

theorem failure (h : Recorded results s) (fault : Fault) :
    Recorded (results ++ [(g, .error fault)]) s := by
  refine ⟨h.consistent, fun owner name => ?_, fun owner name => ?_⟩
  · rw [successes_snoc, h.current]
    simp [successOf]
  · rw [successes_snoc, h.documents]
    simp [successOf]

/-- A reused document is that of the last success before. -/
theorem reuse (h : Recorded results s) {draft : RepositoryDraft} {repository : Repository}
    {result : Result} (known : requested g.remote g.owner g.name = .ok draft)
    (ok : s.putRepository draft = .ok (repository, t))
    (current : t.currentSnapshot? repository.id = some result.snapshot)
    (fresh : result.snapshot.commit = repository.commit)
    (text : result.text = result.snapshot.payload) (reused : result.reused = true) :
    Recorded (results ++ [(g, .ok result)]) t := by
  obtain ⟨howner, hname, hcommit, -, hmem, -⟩ := Store.putRepository_documents h.consistent ok
  have ht := h.put ok
  refine ⟨ht.consistent, fun owner name => ?_, fun owner name => ?_⟩
  · rw [successes_snoc, successOf_ok known howner hname]
    split
    · next e =>
      cases e
      rw [Store.currentOf, ht.consistent.repository?_eq hmem, Option.bind_some, current]
      simp [text, fresh, hcommit]
    · rw [ht.current]
      simp
  · rw [successes_snoc, successOf_ok known howner hname, ht.documents]
    split <;> simp [reused]

/-- A document that has been made is the newest one of its repository. -/
theorem make (h : Recorded results s) {draft : RepositoryDraft} {repository : Repository}
    {result : Result} {namespaceIds : List Id} (known : requested g.remote g.owner g.name = .ok draft)
    (ok : s.putRepository draft = .ok (repository, t))
    (run : Store.FactRun repository.graphKey t u) {v : Store}
    (saved : u.saveSnapshot ⟨repository.id, repository.commit, result.text, result.outputPath,
      namespaceIds⟩ = .ok (result.snapshot, v)) (made : result.reused = false) :
    Recorded (results ++ [(g, .ok result)]) v := by
  obtain ⟨howner, hname, hcommit, -, hmem, -⟩ := Store.putRepository_documents h.consistent ok
  have hu := (h.put ok).facts run
  have hmem' : repository ∈ u.repositories.rows := by rwa [run.repositories]
  obtain ⟨hcurrent, hdocuments, other⟩ :=
    Store.saveSnapshot_documents hu.consistent hmem' rfl saved
  obtain ⟨i, commit, -, hc, -, -, hrow, -⟩ := Store.saveSnapshot_ok saved
  have row : (result.snapshot.payload, result.snapshot.commit, result.snapshot.exportPath) =
      (result.text, draft.commit, result.outputPath) := by
    cases hc
    rw [hrow, hcommit]
  obtain ⟨hpayload, hrest⟩ := Prod.mk.inj row
  obtain ⟨hrowCommit, hpath⟩ := Prod.mk.inj hrest
  refine ⟨(hu.consistent.saveSnapshot saved).1, fun owner name => ?_, fun owner name => ?_⟩
  · rw [successes_snoc, successOf_ok known howner hname]
    split
    · next e =>
      cases e
      rw [hcurrent]
      simp [hpayload, hrowCommit]
    · next hne =>
      rw [(other owner name hne).1, hu.current]
      simp
  · rw [successes_snoc, successOf_ok known howner hname]
    split
    · next e =>
      cases e
      have before := hu.documents repository.owner repository.name
      rw [hdocuments, List.map_cons, List.map_map, List.filter_append, List.map_append,
        List.reverse_append, ← before]
      simp [made, hpayload, hrowCommit, hpath, Function.comp_def, shown_demotedBy]
    · next hne =>
      rw [(other owner name hne).2, hu.documents]
      simp

/-- One more generation keeps the record, whatever it comes to. -/
theorem snoc (h : Recorded results s) {result : Except Fault Result}
    (ended : Generated (requested g.remote g.owner g.name) s result t) :
    Recorded (results ++ [(g, result)]) t := by
  cases ended with
  | unknown fault => exact h.failure fault
  | failed fault _ put run => exact ((h.put put).facts run).failure fault
  | reused known put current fresh text reused => exact h.reuse known put current fresh text reused
  | made known put run saved made => exact h.make known put run saved made

end Recorded

theorem history_recorded (generations : List Generation) :
    Recorded (history generations).results (history generations).world.store := by
  induction generations using List.reverseRecOn with
  | nil => exact recorded_empty
  | append_singleton generations g ih =>
    rw [history_snoc]
    exact ih.snoc (generate_generated g.remote g.settings g.random g.owner g.name g.force g.toStart
      { (history generations).world with disk := g.disk })

theorem Generated.forest {identity : Except Fault RepositoryDraft} {s t : Store}
    {answer : Except Fault Result} (h : Generated identity s answer t) (hs : s.Consistent)
    (hf : s.Forest) : t.Forest := by
  cases h with
  | unknown => exact hf
  | failed _ _ put run => exact run.forest (hs.putRepository put).1 (hf.putRepository put)
  | reused _ put => exact hf.putRepository put
  | made _ put run saved =>
    exact (run.forest (hs.putRepository put).1 (hf.putRepository put)).saveSnapshot saved

theorem history_forest (generations : List Generation) : (history generations).world.store.Forest := by
  induction generations using List.reverseRecOn with
  | nil => exact Store.forest_empty
  | append_singleton generations g ih =>
    rw [history_snoc]
    exact (generate_generated g.remote g.settings g.random g.owner g.name g.force g.toStart
      { (history generations).world with disk := g.disk }).forest
        (history_recorded generations).consistent ih

/-- A generation that fails leaves all documents as they are but for their links to namespaces. -/
theorem Generated.documents_of_error {identity : Except Fault RepositoryDraft} {s t : Store}
    {fault : Fault} (h : Generated identity s (.error fault) t) :
    t.snapshots.rows.map Snapshot.core = s.snapshots.rows.map Snapshot.core := by
  cases h with
  | unknown => rfl
  | failed _ _ put run =>
    rw [Store.putRepository_frame put] at run
    exact run.snapshots.2

/-- After any generations, and for any repository: the current document has the text and the commit of
the last success, the documents are the successes that were not reused, newest first, and one more
generation that fails changes no document but for its links to namespaces. -/
theorem history_documents (generations : List Generation) (owner name : String) :
    let h := history generations
    ((h.world.store.currentOf owner name).map fun d => (d.payload, d.commit)) =
        ((successes h.results owner name).getLast?.map fun e => (e.result.text, e.commit)) ∧
      ((h.world.store.documentsOf owner name).map fun d => (d.payload, d.commit, d.exportPath)) =
        (((successes h.results owner name).filter (!·.result.reused)).map fun e =>
          (e.result.text, e.commit, e.result.outputPath)).reverse ∧
      ∀ (g : Generation) (fault : Fault), (g.perform h.world).1 = .error fault →
        (g.perform h.world).2.store.snapshots.rows.map Snapshot.core =
          h.world.store.snapshots.rows.map Snapshot.core := by
  intro h
  have recorded := history_recorded generations
  refine ⟨recorded.current owner name, recorded.documents owner name, fun g fault failed => ?_⟩
  have ended := generate_generated g.remote g.settings g.random g.owner g.name g.force g.toStart
    { h.world with disk := g.disk }
  rw [show generate _ _ _ _ _ _ _ _ = g.perform h.world from rfl, failed] at ended
  exact ended.documents_of_error

/-- A generation for a repository that has one commit of some files, each a path and a text. -/
def Generation.ofFiles (commit : String) (files : List (String × String)) : Generation where
  remote := {
    metadata := fun owner name =>
      ⟨.ok { owner, name, commit, description := .text "A tool", defaultBranch := .text "main" }, [], []⟩
    listing := fun _ _ _ => ⟨.ok (files.map fun f => { kind := "file", path := .text f.1 }), [], []⟩
    text := fun _ _ path => ⟨.ok ((files.lookup path).getD ""), [], []⟩ }
  settings := { order := .name }
  random := ""
  owner := some "acme"
  name := some "tool"
  force := false
  toStart := none
  disk := {}

/-- After a success, a generation for the next commit that finds no source to read. -/
theorem history_documents_of_failure :
    let h := history [.ofFiles "c0ffee" [("A.java", "class A {}")]]
    let g : Generation := .ofFiles "decade" [("A.java", "class")]
    ∃ fault, (g.perform h.world).1 = .error fault ∧
      (g.perform h.world).2.store.snapshots.rows.map Snapshot.core =
        h.world.store.snapshots.rows.map Snapshot.core := by
  dsimp only
  have documents := history_documents [.ofFiles "c0ffee" [("A.java", "class A {}")]] "acme" "tool"
  have fails : ((Generation.ofFiles "decade" [("A.java", "class")]).perform
      (history [.ofFiles "c0ffee" [("A.java", "class A {}")]]).world).1.isOk = false := by
    decide +kernel
  cases answer : ((Generation.ofFiles "decade" [("A.java", "class")]).perform
      (history [.ofFiles "c0ffee" [("A.java", "class A {}")]]).world).1 with
  | error fault => exact ⟨fault, rfl, documents.2.2 _ fault answer⟩
  | ok result =>
    rw [answer] at fails
    cases fails

end CodeOutline.Service
