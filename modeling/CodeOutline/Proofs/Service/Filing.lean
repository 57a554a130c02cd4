import CodeOutline.Proofs.Files.Report
import CodeOutline.Proofs.Service.Made
import CodeOutline.Proofs.Service.Session

/-!
# Documents and their files

The store and the disk change one after the other: a report is written first, and its document is saved
once the file is in its place. `Filed` is what holds of the two before and after each generation: the
file of every current document has the document's text. A generation that fails has at most made
directories, since what is written is always saved (`Ended.filed`). A new report replaces that of its
own repository or nothing, and since no directory goes all others are still found.

Generations share one disk here, which nothing else writes to and which has no links. A file is the
text that it has in UTF-8, and so is the name of a directory: one whose name is no text cannot be asked
for.
-/

namespace CodeOutline.Service

open CodeOutline.Files CodeOutline.Graph CodeOutline.Ingest CodeOutline.Remote

/-- The file of every current document is where the document says, in a place of its repository, and
has the text of the document. -/
def Filed (s : Store) (d : Disk) : Prop :=
  ∀ owner name document path, s.currentOf owner name = some document →
    document.exportPath = some path → ∃ place, IsReportPlace owner name place ∧
      path = Place.text place ∧ d.read? ⟨"/", place⟩ = some document.payload

namespace Filed

variable {s t : Store} {d d' : Disk}

theorem congr (h : Filed s d)
    (same : ∀ owner name, (t.currentOf owner name).map Snapshot.core =
      (s.currentOf owner name).map Snapshot.core) : Filed t d := by
  intro owner name document path current exported
  have core := same owner name
  rw [current, Option.map_some, eq_comm, Option.map_eq_some_iff] at core
  obtain ⟨before, hbefore, e⟩ := core
  have hpath : before.core.exportPath = document.core.exportPath := congrArg Snapshot.exportPath e
  have hpayload : before.core.payload = document.core.payload := congrArg Snapshot.payload e
  change before.exportPath = document.exportPath at hpath
  change before.payload = document.payload at hpayload
  rw [← hpayload]
  exact h owner name before path hbefore (hpath.trans exported)

/-- What is known about repositories may change without any change to the documents. -/
theorem put (h : Filed s d) (hs : s.Consistent) {draft : RepositoryDraft} {row : Repository}
    (ok : s.putRepository draft = .ok (row, t)) : Filed t d := by
  obtain ⟨-, -, -, -, -, same⟩ := Store.putRepository_documents hs ok
  refine h.congr fun owner name => ?_
  rw [(same owner name).1]

/-- Facts may change without any change to the documents but for their links. -/
theorem facts (h : Filed s d) {key : String} (run : Store.FactRun key s t) : Filed t d :=
  h.congr fun owner name => (run.documents owner name).1

theorem grown (h : Filed s d) (more : d.Grown d') : Filed s d' := by
  intro owner name document path current exported
  obtain ⟨place, isPlace, hpath, read⟩ := h owner name document path current exported
  exact ⟨place, isPlace, hpath, more.read? read⟩

variable {draft : SnapshotDraft} {row : Snapshot} {repository : Repository}

/-- A document that has no file replaces the one of its repository. -/
theorem save (h : Filed s d) (hs : s.Consistent) (hr : repository ∈ s.repositories.rows)
    (hid : draft.repositoryId = some repository.id) (ok : s.saveSnapshot draft = .ok (row, t))
    (unwritten : row.exportPath = none) : Filed t d := by
  obtain ⟨own, -, other⟩ := Store.saveSnapshot_documents hs hr hid ok
  intro owner name document path current exported
  by_cases key : (repository.owner, repository.name) = (owner, name)
  · cases key
    cases own.symm.trans current
    cases unwritten.symm.trans exported
  · rw [(other owner name key).1] at current
    exact h owner name document path current exported

/-- A document with its file replaces the one of its repository, and no file of another one. -/
theorem saveWritten (h : Filed s d) (plain : d.Plain) (hs : s.Consistent)
    (hr : repository ∈ s.repositories.rows) (hid : draft.repositoryId = some repository.id)
    (ok : s.saveSnapshot draft = .ok (row, t)) {place : Place}
    (isPlace : IsReportPlace repository.owner repository.name place)
    (written : row.exportPath = some (Place.text place)) {text : String} (payload : row.payload = text)
    (replaced : d.Replaced place text d') : Filed t d' := by
  obtain ⟨own, -, other⟩ := Store.saveSnapshot_documents hs hr hid ok
  intro owner name document path current exported
  by_cases key : (repository.owner, repository.name) = (owner, name)
  · cases key
    cases own.symm.trans current
    cases written.symm.trans exported
    rw [payload]
    exact ⟨place, isPlace, rfl, replaced.read⟩
  · rw [(other owner name key).1] at current
    obtain ⟨place', isPlace', hpath, read⟩ := h owner name document path current exported
    have apart : place' ≠ place := by
      rintro rfl
      exact key (isPlace.unique isPlace')
    exact ⟨place', isPlace', hpath, replaced.read?_other plain isPlace'.down apart read⟩

end Filed

/-! ## Writing a report -/

section Writing

variable {settings : Settings} {random text directory : String} {repository : Repository}
variable {report : Report} {d : Disk}

variable (random text directory repository report) in
/-- A report is written with only new directories, or it is in a place of its repository. -/
theorem writtenIn_cases (plain : d.Plain) :
    (∃ fault, (writtenIn directory repository text random report d).1 = .error fault ∧
        d.Grown (writtenIn directory repository text random report d).2) ∨
      ∃ place, IsReportPlace repository.owner repository.name place ∧
        (writtenIn directory repository text random report d).1 = .ok (Place.text place) ∧
        d.Replaced place text (writtenIn directory repository text random report d).2 := by
  unfold writtenIn
  cases hpath : reportPath directory repository.owner repository.name with
  | error fault => exact .inl ⟨_, rfl, .refl d⟩
  | ok path =>
    dsimp only
    cases hplace : d.outputPlace path.text none with
    | error fault => rcases fault with (_ | _) | _ <;> exact .inl ⟨_, rfl, .refl d⟩
    | ok place =>
      have isPlace := plain.isReportPlace hpath hplace
      have cases := plain.write_cases isPlace.down text random
      dsimp only
      rcases hwrite : d.write ⟨"/", place⟩ text random with ⟨fault | _, d'⟩
      · rw [hwrite] at cases
        rcases cases with ⟨-, -, grown⟩ | ⟨ok, -⟩
        · exact .inl ⟨_, rfl, grown⟩
        · cases ok
      · rw [hwrite] at cases
        rcases cases with ⟨fault, failed, -⟩ | ⟨-, replaced⟩
        · cases failed
        · exact .inr ⟨place, isPlace, rfl, replaced⟩

variable (settings random text repository report) in
/-- What a generation does to the disk: with an error it makes directories at most, and else it writes
the report, if there is a directory for it. -/
theorem outputIn_cases (plain : d.Plain) :
    (∃ fault, (outputIn settings random repository text report d).1 = .error fault ∧
        d.Grown (outputIn settings random repository text report d).2) ∨
      outputIn settings random repository text report d = (.ok none, d) ∨
      ∃ place, IsReportPlace repository.owner repository.name place ∧
        (outputIn settings random repository text report d).1 = .ok (some (Place.text place)) ∧
        d.Replaced place text (outputIn settings random repository text report d).2 := by
  unfold outputIn
  cases settings.outputDirectory with
  | none => exact .inr (.inl rfl)
  | some directory =>
    dsimp only
    rcases writtenIn_cases random text directory repository report plain with
      ⟨fault, failed, grown⟩ | ⟨place, isPlace, ok, replaced⟩
    · rw [failed]
      exact .inl ⟨fault, rfl, grown⟩
    · rw [ok]
      exact .inr (.inr ⟨place, isPlace, rfl, replaced⟩)

/-- What cannot be exported leaves at most new directories: a document is always saved once its report
is written. -/
theorem diskAfter_of_error {s : Store} {fault : Fault} (hs : s.Consistent)
    (hr : repository ∈ s.repositories.rows) (plain : d.Plain)
    (unsaved : exported settings random repository report s d = .error fault) :
    d.Grown (diskAfter settings random repository report s d) := by
  unfold diskAfter
  rcases exported_error hs hr unsaved with ⟨f, htree, -⟩ | ⟨tree, htree, houtput⟩
  · rw [htree]
    exact .refl d
  · rw [htree]
    rw [outputOf_eq] at houtput
    rcases outputIn_cases settings random (tree.render settings.order) repository report plain with
      ⟨-, -, grown⟩ | none | ⟨place, -, ok, -⟩
    · exact grown
    · rw [none] at houtput
      cases houtput
    · cases ok.symm.trans houtput

theorem diskAfter_of_saved {s t : Store} {result : Result} (hs : s.Consistent)
    (hr : repository ∈ s.repositories.rows) (plain : d.Plain) (filed : Filed s d)
    (saved : exported settings random repository report s d = .ok (result, t)) :
    (diskAfter settings random repository report s d).Plain ∧
      Filed t (diskAfter settings random repository report s d) := by
  obtain ⟨tree, outputPath, row, htree, houtput, document, -⟩ := exported_eq_ok.1 saved
  obtain ⟨_, _, -, -, -, -, hrow, -⟩ := Store.saveSnapshot_ok document
  have hpayload : row.payload = tree.render settings.order := by rw [hrow]; rfl
  have hpath : row.exportPath = outputPath := by rw [hrow]; rfl
  rw [outputOf_eq] at houtput
  unfold diskAfter
  rw [htree]
  dsimp only
  rcases outputIn_cases settings random (tree.render settings.order) repository report plain with
    ⟨fault, failed, -⟩ | none | ⟨place, isPlace, ok, replaced⟩
  · cases failed.symm.trans houtput
  · rw [none] at houtput ⊢
    cases houtput
    exact ⟨plain, filed.save hs hr rfl document hpath⟩
  · rw [ok] at houtput
    rw [← Except.ok.inj houtput] at hpath
    exact ⟨replaced.plain plain,
      filed.saveWritten plain hs hr rfl document isPlace hpath hpayload replaced⟩

end Writing

/-! ## Generations on one disk -/

section Ended

variable {remote : Remote} {settings : Settings} {random owner name : String} {force : Bool}
variable {toStart : Option Nat} {w : World} {answer : Except Fault Result} {t : Store} {d : Disk}

/-- A generation keeps documents and files together. With an error it makes directories at most. -/
theorem Ended.filed (h : Ended remote settings random owner name force toStart w answer t d)
    (hs : w.store.Consistent) (plain : w.disk.Plain) (filed : Filed w.store w.disk) :
    d.Plain ∧ Filed t d ∧ ∀ fault, answer = .error fault → w.disk.Grown d := by
  cases h with
  | unknown => exact ⟨plain, filed, fun _ _ => .refl _⟩
  | reused known =>
    obtain ⟨draft, -, put⟩ := refreshed_eq_ok.1 known
    exact ⟨plain, filed.put hs put, nofun⟩
  | refused known _ _ facts =>
    obtain ⟨draft, -, put⟩ := refreshed_eq_ok.1 known
    refine ⟨plain, ?_, fun _ _ => .refl _⟩
    rcases facts with ⟨rfl, -⟩ | ⟨paths, -, ingested⟩
    · exact filed.put hs put
    · exact (filed.put hs put).facts ingested.run
  | unsaved known _ _ _ facts unsaved =>
    obtain ⟨draft, -, put⟩ := refreshed_eq_ok.1 known
    obtain ⟨run, hp, hr⟩ := pruned_known facts hs put _
    have grown := diskAfter_of_error hp hr plain unsaved
    exact ⟨grown.plain plain, ((filed.put hs put).facts run).grown grown, fun _ _ => grown⟩
  | made known _ _ _ facts saved =>
    obtain ⟨draft, -, put⟩ := refreshed_eq_ok.1 known
    obtain ⟨run, hp, hr⟩ := pruned_known facts hs put _
    obtain ⟨plain', filed'⟩ := diskAfter_of_saved hp hr plain ((filed.put hs put).facts run) saved
    exact ⟨plain', filed', nofun⟩

end Ended

/-- The same generation, on another disk. -/
def Generation.onDisk (g : Generation) (d : Disk) : Generation := { g with disk := d }

/-- The world after generations on one disk, from an empty database. Each one meets the disk that those
before it have left. -/
def runOn (disk : Disk) (generations : List Generation) : World :=
  generations.foldl (fun w g => ((g.onDisk w.disk).perform w).2) { disk }

section Runs

variable {g : Generation} {w : World}

theorem perform_onDisk (g : Generation) (w : World) :
    (g.onDisk w.disk).perform w =
      generate g.remote g.settings g.random g.owner g.name g.force g.toStart w := rfl

theorem perform_filed (hs : w.store.Consistent) (plain : w.disk.Plain)
    (filed : Filed w.store w.disk) :
    ((g.onDisk w.disk).perform w).2.disk.Plain ∧
      Filed ((g.onDisk w.disk).perform w).2.store ((g.onDisk w.disk).perform w).2.disk ∧
      ∀ fault, ((g.onDisk w.disk).perform w).1 = .error fault →
        w.disk.Grown ((g.onDisk w.disk).perform w).2.disk := by
  rw [perform_onDisk]
  rcases generate_ended g.remote g.settings g.random g.owner g.name g.force g.toStart w with
    ⟨-, -, store, disk⟩ | ⟨owner, name, -, -, -, ended⟩
  · rw [store, disk]
    exact ⟨plain, filed, fun _ _ => .refl _⟩
  · exact ended.filed hs plain filed

theorem runOn_snoc (disk : Disk) (generations : List Generation) (g : Generation) :
    runOn disk (generations ++ [g]) =
      ((g.onDisk (runOn disk generations).disk).perform (runOn disk generations)).2 := by
  rw [runOn, List.foldl_append]
  rfl

theorem runOn_filed {disk : Disk} (plain : disk.Plain) (generations : List Generation) :
    (runOn disk generations).store.Consistent ∧ (runOn disk generations).disk.Plain ∧
      Filed (runOn disk generations).store (runOn disk generations).disk := by
  induction generations using List.reverseRecOn with
  | nil => exact ⟨Store.consistent_empty, plain, nofun⟩
  | append_singleton generations g ih =>
    obtain ⟨hs, plain, filed⟩ := ih
    obtain ⟨plain', filed', -⟩ := perform_filed (g := g) hs plain filed
    rw [runOn_snoc]
    refine ⟨?_, plain', filed'⟩
    rw [perform_onDisk]
    exact ((generate_generated g.remote g.settings g.random g.owner g.name g.force g.toStart
      (runOn disk generations)).keeps hs).1

end Runs

/-- After any generations on a disk without links, whatever they ask for and whatever becomes of them:
every current document that names a file has its text in that file, and one more generation that fails
leaves every file as it is, with the same text at the same place, and to be read by the same paths. -/
theorem runOn_reports {disk : Disk} (plain : disk.Plain) (generations : List Generation) :
    (∀ owner name document path,
      (runOn disk generations).store.currentOf owner name = some document →
        document.exportPath = some path →
        (runOn disk generations).disk.read? (.ofString path) = some document.payload) ∧
      ∀ (g : Generation) (fault : Fault),
        ((g.onDisk (runOn disk generations).disk).perform (runOn disk generations)).1 =
            .error fault →
          (∀ place text, Disk.entry? (runOn disk generations).disk place = some (.file text) →
            Disk.entry? (runOn disk (generations ++ [g])).disk place = some (.file text)) ∧
          ∀ p text, (runOn disk generations).disk.read? p = some text →
            (runOn disk (generations ++ [g])).disk.read? p = some text := by
  obtain ⟨hs, plain, filed⟩ := runOn_filed plain generations
  constructor
  · intro owner name document path current exported
    obtain ⟨place, isPlace, rfl, read⟩ := filed owner name document path current exported
    rw [Path.ofString_placeText isPlace.components]
    exact read
  · intro g fault failed
    obtain ⟨-, -, grown⟩ := perform_filed (g := g) hs plain filed
    have more := grown fault failed
    rw [runOn_snoc]
    exact ⟨fun _ _ => more.kept, fun _ _ => more.read?⟩

/-! ## Two reports below one directory -/

/-- A working directory with nothing in it. -/
def emptyWork : Disk := { entries := [(["work"], .directory)], cwd := ["work"] }

/-- A repository of that owner, with one file, whose report is written below the directory. -/
def reporting (owner commit text directory : String) : Generation :=
  { Generation.ofFiles commit [("A.java", text)] with
    owner := some owner, settings := { order := .name, outputDirectory := some directory } }

/-- Two owners' reports below one directory, which is given in two ways. -/
def twoReports : List Generation :=
  [reporting "acme" "c0ffee" "class A {}" "docs",
    reporting "globex" "f00d" "class B {}" "/work/docs/../docs"]

/-- A directory that would have to be where a report is. -/
def blocked : Generation := reporting "acme" "decade" "class C {}" "docs/acme/tool.md"

theorem plain_emptyWork : emptyWork.Plain := by
  constructor
  · intro place target
    unfold emptyWork Disk.entry?
    by_cases root : place = []
    · simp [root]
    · by_cases work : ["work"] = place <;> simp [root, work]
  · intro part hpart
    rw [List.mem_singleton.1 hpart]
    exact ⟨by decide, by decide, by decide⟩

/-- The first report still has its document's text after the second one, and after a generation that
fails since the report is in its way. -/
theorem runOn_reports_of_blocked :
    ∃ document fault,
      (runOn emptyWork twoReports).store.currentOf "acme" "tool" = some document ∧
        document.exportPath = some "/work/docs/acme/tool.md" ∧
        ((blocked.onDisk (runOn emptyWork twoReports).disk).perform (runOn emptyWork twoReports)).1 =
          .error fault ∧
        (runOn emptyWork (twoReports ++ [blocked])).disk.read? (.ofString "/work/docs/acme/tool.md") =
          some document.payload := by
  obtain ⟨filed, failing⟩ := runOn_reports plain_emptyWork twoReports
  have exported : ((runOn emptyWork twoReports).store.currentOf "acme" "tool").map (·.exportPath) =
      some (some "/work/docs/acme/tool.md") := by decide +kernel
  have fails : ((blocked.onDisk (runOn emptyWork twoReports).disk).perform
      (runOn emptyWork twoReports)).1.isOk = false := by decide +kernel
  obtain ⟨document, current, hpath⟩ := Option.map_eq_some_iff.1 exported
  have read := filed "acme" "tool" document _ current hpath
  cases answer : ((blocked.onDisk (runOn emptyWork twoReports).disk).perform
      (runOn emptyWork twoReports)).1 with
  | ok result =>
    rw [answer] at fails
    cases fails
  | error fault =>
    obtain ⟨-, kept⟩ := failing blocked fault answer
    exact ⟨document, fault, current, hpath, rfl, kept _ _ read⟩

end CodeOutline.Service
