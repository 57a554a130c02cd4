import CodeOutline.Proofs.Service.Stage

/-!
# Exporting a document

The last stage makes a tree of what is stored, writes its text below a directory if there is one to
write to, and saves it as the repository's document. What writing comes to is a function of the disk
before it (`outputIn`), and what exporting comes to is one of the store and the disk (`exported`,
`diskAfter`).

Writing fails with an error of its stage, but for one case. Where the links on the way to the report
lead back to themselves, the report has no canonical place, and the fault is that of the links.
-/

namespace CodeOutline.Service

open CodeOutline.Data CodeOutline.Files CodeOutline.Graph CodeOutline.Ingest CodeOutline.Log
open CodeOutline.Remote CodeOutline.Text

/-! ## Answers -/

/-- The tree of a repository in a store. -/
def treeOf (repository : Repository) (s : Store) : Except Report.AssemblyFault Report.Tree :=
  (Report.assemble .store (headingOf repository) (s.namespacesOf repository.graphKey) s).1

/-- Where a report is written, if it is written at all. -/
def outputOf (settings : Settings) (random : String) (repository : Repository) (text : String)
    (report : Report) (d : Disk) : Except Fault (Option String) :=
  ((settings.outputDirectory.mapM (writeReport · repository text random report) : Step _).run
    { disk := d }).1

/-- The document as it is to be saved. -/
def documentOf (repository : Repository) (tree : Report.Tree) (text : String)
    (outputPath : Option String) : SnapshotDraft where
  repositoryId := repository.id
  commit := repository.commit
  payload := text
  exportPath := outputPath
  namespaceIds := tree.namespaces.map (·.node.id)

/-- What writing a report below a directory comes to, with the disk after it. -/
def writtenIn (directory : String) (repository : Repository) (text random : String) (report : Report)
    (d : Disk) : Except Fault String × Disk :=
  match reportPath directory repository.owner repository.name with
  | .error fault => (.error (.generation ⟨.exporting (.path fault), some report⟩), d)
  | .ok path =>
    match d.outputPlace path.text none with
    | .error (.resolve (.loop place)) => (.error (.resolve (.loop place)), d)
    | .error fault => (.error (.generation ⟨.exporting (.output fault), some report⟩), d)
    | .ok place =>
      match d.write ⟨"/", place⟩ text random with
      | (.error fault, d) => (.error (.generation ⟨.exporting (.write fault), some report⟩), d)
      | (.ok (), d) => (.ok place.text, d)

/-- What writing a report comes to where there may be a directory for it, with the disk after it. -/
def outputIn (settings : Settings) (random : String) (repository : Repository) (text : String)
    (report : Report) (d : Disk) : Except Fault (Option String) × Disk :=
  match settings.outputDirectory with
  | none => (.ok none, d)
  | some directory =>
    let written := writtenIn directory repository text random report d
    (written.1.map some, written.2)

theorem writeReport_eq (directory : String) (repository : Repository) (text random : String)
    (report : Report) (w : World) :
    (writeReport directory repository text random report).run w =
      ((writtenIn directory repository text random report w.disk).1,
        { w with disk := (writtenIn directory repository text random report w.disk).2 }) := by
  unfold writeReport writtenIn
  rw [Step.run_bind, Step.run_get]
  dsimp only
  cases reportPath directory repository.owner repository.name with
  | error fault => rfl
  | ok path =>
    dsimp only
    cases w.disk.outputPlace path.text none with
    | error fault => rcases fault with (_ | _) | _ <;> rfl
    | ok place =>
      dsimp only
      rw [Step.run_bind, Step.run_modify]
      dsimp only
      rcases w.disk.write ⟨"/", place⟩ text random with ⟨_ | _, _⟩ <;> rfl

theorem output_eq (settings : Settings) (random : String) (repository : Repository) (text : String)
    (report : Report) (w : World) :
    (settings.outputDirectory.mapM (writeReport · repository text random report) : Step _).run w =
      ((outputIn settings random repository text report w.disk).1,
        { w with disk := (outputIn settings random repository text report w.disk).2 }) := by
  unfold outputIn
  cases settings.outputDirectory with
  | none => rfl
  | some directory =>
    change (writeReport directory repository text random report >>= fun p => pure (some p)).run w = _
    rw [Step.run_bind, writeReport_eq]
    dsimp only
    cases (writtenIn directory repository text random report w.disk).1 <;> rfl

theorem outputOf_eq (settings : Settings) (random : String) (repository : Repository) (text : String)
    (report : Report) (d : Disk) :
    outputOf settings random repository text report d =
      (outputIn settings random repository text report d).1 := by
  rw [outputOf, output_eq]

/-- The place of a report depends on its repository's owner and name only. -/
theorem outputOf_congr {r r' : Repository} (ho : r.owner = r'.owner) (hn : r.name = r'.name)
    (settings : Settings) (random text : String) (report : Report) (d : Disk) :
    outputOf settings random r text report d = outputOf settings random r' text report d := by
  unfold outputOf writeReport
  rw [ho, hn]

/-- A report is written if its path is good, leads to a place inside the directory, and can be written
to there. -/
theorem writeReport_eq_ok {directory text random place : String} {repository : Repository}
    {report : Report} {w : World} :
    ((writeReport directory repository text random report).run w).1 = .ok place ↔
      ∃ path goal, reportPath directory repository.owner repository.name = .ok path ∧
        w.disk.outputPlace path.text none = .ok goal ∧
        (w.disk.write ⟨"/", goal⟩ text random).1 = .ok () ∧ goal.text = place := by
  unfold writeReport
  simp only [Step.run_bind, Step.run_get]
  cases reportPath directory repository.owner repository.name with
  | error fault => exact ⟨nofun, fun ⟨_, _, h, _⟩ => nomatch h⟩
  | ok path =>
    simp only [Except.ok.injEq, exists_and_left, exists_eq_left']
    cases w.disk.outputPlace path.text none with
    | error fault => rcases fault with (_ | _) | _ <;> exact ⟨nofun, fun ⟨_, h, _⟩ => nomatch h⟩
    | ok goal =>
      simp only [Except.ok.injEq, exists_eq_left', Step.run_bind, Step.run_modify]
      cases (w.disk.write ⟨"/", goal⟩ text random).1 with
      | error fault => exact ⟨nofun, fun ⟨h, _⟩ => nomatch h⟩
      | ok =>
        constructor
        · rintro ⟨⟩
          exact ⟨rfl, rfl⟩
        · rintro ⟨-, rfl⟩
          rfl

theorem outputOf_eq_ok {settings : Settings} {random text : String} {repository : Repository}
    {report : Report} {d : Disk} {outputPath : Option String} :
    outputOf settings random repository text report d = .ok outputPath ↔
      (settings.outputDirectory = none ∧ outputPath = none) ∨
        ∃ directory place, settings.outputDirectory = some directory ∧ outputPath = some place ∧
          ((writeReport directory repository text random report).run { disk := d }).1 = .ok place := by
  unfold outputOf
  cases settings.outputDirectory with
  | none =>
    change (Except.ok none : Except Fault (Option String)) = .ok outputPath ↔ _
    simp [eq_comm]
  | some directory =>
    change ((writeReport directory repository text random report >>= fun p => pure (some p)).run
      { disk := d }).1 = _ ↔ _
    rw [Step.run_bind]
    simp only [reduceCtorEq, false_and, false_or, Option.some.injEq, exists_and_left,
      exists_eq_left']
    rcases (writeReport directory repository text random report).run { disk := d } with
      ⟨fault | place, w⟩
    · exact ⟨nofun, fun ⟨_, _, h⟩ => nomatch h⟩
    · constructor
      · rintro ⟨⟩
        exact ⟨place, rfl, rfl⟩
      · rintro ⟨_, rfl, ⟨⟩⟩
        rfl

/-- Where a report is written does not depend on what became of the files. -/
theorem outputOf_report {settings : Settings} {random text : String} {repository : Repository}
    {report : Report} {d : Disk} {outputPath : Option String}
    (h : outputOf settings random repository text report d = .ok outputPath) (report' : Report) :
    outputOf settings random repository text report' d = .ok outputPath := by
  simp only [outputOf_eq_ok, writeReport_eq_ok] at h ⊢
  exact h

/-! ## Failures to write -/

section Failures

variable {settings : Settings} {random text : String} {repository : Repository} {report : Report}
variable {directory : String} {d : Disk} {fault : Fault}

/-- The place of a repository's report below a directory cannot be made canonical, since a link on the
way leads back to itself; `place` is what is left to follow. -/
def LoopsAt (d : Disk) (repository : Repository) (directory : String) (place : Place) : Prop :=
  ∃ path, reportPath directory repository.owner repository.name = .ok path ∧
    d.outputPlace path.text none = .error (.resolve (.loop place))

theorem writtenIn_error (h : (writtenIn directory repository text random report d).1 = .error fault) :
    (∃ f, fault = .generation ⟨.exporting f, some report⟩) ∨
      ∃ place, LoopsAt d repository directory place ∧ fault = .resolve (.loop place) := by
  unfold writtenIn at h
  cases hpath : reportPath directory repository.owner repository.name with
  | error f =>
    rw [hpath] at h
    cases h
    exact .inl ⟨_, rfl⟩
  | ok path =>
    rw [hpath] at h
    dsimp only at h
    cases hplace : d.outputPlace path.text none with
    | error f =>
      rw [hplace] at h
      rcases f with (_ | place) | _
      · cases h
        exact .inl ⟨_, rfl⟩
      · cases h
        exact .inr ⟨place, ⟨path, hpath, hplace⟩, rfl⟩
      · cases h
        exact .inl ⟨_, rfl⟩
    | ok place =>
      rw [hplace] at h
      dsimp only at h
      rcases hwrite : d.write ⟨"/", place⟩ text random with ⟨f | _, d'⟩
      · rw [hwrite] at h
        cases h
        exact .inl ⟨_, rfl⟩
      · rw [hwrite] at h
        cases h

theorem writtenIn_loop {place : Place} (h : LoopsAt d repository directory place) :
    (writtenIn directory repository text random report d).1 = .error (.resolve (.loop place)) := by
  obtain ⟨path, hpath, hplace⟩ := h
  unfold writtenIn
  rw [hpath]
  dsimp only
  rw [hplace]

theorem outputOf_error (h : outputOf settings random repository text report d = .error fault) :
    (∃ f, fault = .generation ⟨.exporting f, some report⟩) ∨
      ∃ directory place, settings.outputDirectory = some directory ∧
        LoopsAt d repository directory place ∧ fault = .resolve (.loop place) := by
  rw [outputOf_eq, outputIn] at h
  cases hdirectory : settings.outputDirectory with
  | none =>
    rw [hdirectory] at h
    cases h
  | some directory =>
    rw [hdirectory] at h
    dsimp only at h
    cases hwritten : (writtenIn directory repository text random report d).1 with
    | ok place =>
      rw [hwritten] at h
      cases h
    | error f =>
      rw [hwritten] at h
      cases h
      rcases writtenIn_error hwritten with exporting | ⟨place, loops, e⟩
      · exact .inl exporting
      · exact .inr ⟨directory, place, rfl, loops, e⟩

theorem outputOf_loop {place : Place} (hdirectory : settings.outputDirectory = some directory)
    (h : LoopsAt d repository directory place) :
    outputOf settings random repository text report d = .error (.resolve (.loop place)) := by
  rw [outputOf_eq, outputIn, hdirectory]
  dsimp only
  rw [writtenIn_loop h]
  rfl

end Failures

/-! ## Saved documents -/

/-- What saving the document of a repository comes to, with what is on the disk. -/
def exported (settings : Settings) (random : String) (repository : Repository) (report : Report)
    (s : Store) (d : Disk) : Except Fault (Result × Store) := do
  let tree ← (treeOf repository s).mapError fun fault => .generation ⟨.assembly fault, some report⟩
  let text := tree.render settings.order
  let outputPath ← outputOf settings random repository text report d
  let (snapshot, t) ← (s.saveSnapshot (documentOf repository tree text outputPath)).mapError .store
  return (⟨text, false, snapshot, some report, outputPath⟩, t)

theorem exported_eq_ok {settings : Settings} {random : String} {repository : Repository}
    {report : Report} {s t : Store} {d : Disk} {result : Result} :
    exported settings random repository report s d = .ok (result, t) ↔
      ∃ tree outputPath snapshot, treeOf repository s = .ok tree ∧
        outputOf settings random repository (tree.render settings.order) report d = .ok outputPath ∧
        s.saveSnapshot (documentOf repository tree (tree.render settings.order) outputPath) =
          .ok (snapshot, t) ∧
        result = ⟨tree.render settings.order, false, snapshot, some report, outputPath⟩ := by
  simp only [exported, andThen_eq_ok, mapError_eq_ok]
  constructor
  · rintro ⟨tree, htree, outputPath, houtput, ⟨snapshot, u⟩, hsaved, h⟩
    cases h
    exact ⟨tree, outputPath, snapshot, htree, houtput, hsaved, rfl⟩
  · rintro ⟨tree, outputPath, snapshot, htree, houtput, hsaved, rfl⟩
    exact ⟨tree, htree, outputPath, houtput, (snapshot, t), hsaved, rfl⟩

/-- The disk after a document is exported: the report is written where there is a tree. -/
def diskAfter (settings : Settings) (random : String) (repository : Repository) (report : Report)
    (s : Store) (d : Disk) : Disk :=
  match treeOf repository s with
  | .error _ => d
  | .ok tree => (outputIn settings random repository (tree.render settings.order) report d).2

theorem exportDocument_run (settings : Settings) (random : String) (repository : Repository)
    (report : Report) (w : World) :
    ∃ w', (exportDocument settings random repository report).run w =
        ((exported settings random repository report w.store w.disk).map Prod.fst, w') ∧
      w'.store = storeAfter w.store (exported settings random repository report w.store w.disk) ∧
      w'.disk = diskAfter settings random repository report w.store w.disk := by
  unfold exportDocument exported diskAfter treeOf
  rw [Step.run_bind, Step.run_get]
  dsimp only
  rw [Step.run_bind]
  obtain ⟨w₁, hnotes, hstore, hdisk⟩ := Step.run_notes (Report.assemble .store (headingOf repository)
    (w.store.namespacesOf repository.graphKey) w.store).2.2 w
  rw [hnotes]
  dsimp only
  cases (Report.assemble .store (headingOf repository)
    (w.store.namespacesOf repository.graphKey) w.store).1 with
  | error fault => exact ⟨w₁, rfl, hstore, hdisk⟩
  | ok tree =>
    dsimp only
    rw [Step.run_bind, output_eq, hdisk]
    simp only [Except.mapError, bind, Except.bind]
    rw [outputOf_eq]
    cases (outputIn settings random repository (tree.render settings.order) report w.disk).1 with
    | error fault => exact ⟨_, rfl, hstore, rfl⟩
    | ok outputPath =>
      dsimp only
      change ∃ w', ((get : Step World) >>= _).run _ = _ ∧ _
      rw [Step.run_bind, Step.run_get]
      dsimp only [documentOf]
      rw [hstore]
      cases w.store.saveSnapshot _ with
      | error fault => exact ⟨_, rfl, hstore, rfl⟩
      | ok saved => exact ⟨_, rfl, rfl, rfl⟩

end CodeOutline.Service
