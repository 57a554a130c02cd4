import CodeOutline.Config.Load
import CodeOutline.Proofs.Data.Equality
import CodeOutline.Proofs.Data.Outcome

/-!
# Files as layers

A file that is there has a document, and the document is a layer of the settings if the search for
credentials finds nothing in it. `load_settings` says that loading goes through the layer of the
user's file, then that of the project's, and then makes settings of both: it converts what they say
(`settingsOf_eq`), changes it by variables (`withVariables_eq`) and checks it (`Draft.check_eq_ok`).
Later proofs go by these, and by the ways in which each can fail, and do not open the loading itself.
-/

namespace CodeOutline.Config

open CodeOutline.Data CodeOutline.Log CodeOutline.Number CodeOutline.Text

/-- The document of a file. A file that is not there has an empty one. -/
def documentOf : Option SettingsFile → Except LoadFault Entries
  | none => .ok []
  | some file => file.read

/-- The document of a file in which the search for credentials finds nothing. -/
def layerOf : Option SettingsFile → Except LoadFault Entries
  | none => .ok []
  | some file => do
    let entries ← file.read
    checkCredentials file.path entries
    return entries

/-- The layers of both files over each other. -/
def layered (user project : Entries) : Entries := overlay (overlay [] user) project

/-- What a finding in the file at a path is reported as. -/
def Finding.fault (path : Files.Path) : Finding → LoadFault
  | .credential key => .problem (.credential path key)
  | .longKey => .longKey
  | .bottomless => .bottomless

variable {user project file : Option SettingsFile} {env : Environment} {entries : Entries}
variable {fault : LoadFault}

theorem checkCredentials_eq (path : Files.Path) (entries : Entries) :
    checkCredentials path entries =
      match findInEntries? none entries with
      | none => .ok ()
      | some finding => .error (finding.fault path) := by
  unfold checkCredentials
  cases findInEntries? none entries with
  | none => rfl
  | some finding => cases finding <;> rfl

/-! ## Layers -/

theorem layerOf_eq_ok :
    layerOf file = .ok entries ↔
      documentOf file = .ok entries ∧ findInEntries? none entries = none := by
  cases file with
  | none =>
    constructor
    · intro h
      cases h
      exact ⟨rfl, rfl⟩
    · exact And.left
  | some file =>
    unfold layerOf documentOf
    simp only [andThen_eq_ok, checkCredentials_eq]
    constructor
    · rintro ⟨document, read, ⟨⟩, quiet, last⟩
      cases last
      refine ⟨read, ?_⟩
      cases h : findInEntries? none entries with
      | none => rfl
      | some finding =>
        rw [h] at quiet
        cases quiet
    · rintro ⟨read, quiet⟩
      exact ⟨entries, read, (), by rw [quiet], rfl⟩

/-- A file has no layer if it has no document, or if something is found in it. -/
theorem layerOf_eq_error :
    layerOf file = .error fault ↔
      documentOf file = .error fault ∨
      ∃ f document finding, file = some f ∧ documentOf file = .ok document ∧
        findInEntries? none document = some finding ∧ fault = finding.fault f.path := by
  cases file with
  | none => exact ⟨nofun, fun h => by rcases h with h | ⟨_, _, _, h, _⟩ <;> cases h⟩
  | some file =>
    unfold layerOf documentOf
    simp only [andThen_eq_error, checkCredentials_eq]
    refine or_congr_right ?_
    constructor
    · rintro ⟨document, read, found | ⟨_, _, last⟩⟩
      · cases h : findInEntries? none document with
        | none =>
          rw [h] at found
          cases found
        | some finding =>
          rw [h] at found
          cases found
          exact ⟨file, document, finding, rfl, read, h, rfl⟩
      · cases last
    · rintro ⟨f, document, finding, same, read, found, rfl⟩
      cases same
      exact ⟨document, read, .inl (by rw [found])⟩

/-! ## Loading -/

theorem addLayer_settings (warnings : List UnknownKey) (lower : Except LoadFault Entries)
    (file : Option SettingsFile) :
    (addLayer (warnings, lower) file).2 =
      (do return overlay (← lower) (← layerOf file)) := by
  unfold addLayer layerOf
  cases lower with
  | error fault => rfl
  | ok lower =>
    cases file with
    | none => rfl
    | some file =>
      dsimp only
      cases (do
        let upper ← file.read
        checkCredentials file.path upper
        pure upper : Except LoadFault Entries) <;> rfl

/-- The user's layer is asked for first, then the project's, and settings are made of both. -/
theorem load_settings (user project : Option SettingsFile) (env : Environment) :
    (load user project env).2 = (do
      let lower ← layerOf user
      let upper ← layerOf project
      settingsOf (layered lower upper) env) := by
  have first : (addLayer ([], .ok []) user).2 = (do return overlay [] (← layerOf user)) :=
    addLayer_settings [] (.ok []) user
  have second := addLayer_settings (addLayer ([], .ok []) user).1 (addLayer ([], .ok []) user).2 project
  unfold load
  dsimp only
  rw [second, first]
  cases layerOf user with
  | error fault => rfl
  | ok lower => cases layerOf project <;> rfl

theorem load_eq_ok {s : Settings} :
    (load user project env).2 = .ok s ↔
      ∃ lower, layerOf user = .ok lower ∧ ∃ upper, layerOf project = .ok upper ∧
        settingsOf (layered lower upper) env = .ok s := by
  simp only [load_settings, andThen_eq_ok]

theorem load_eq_error :
    (load user project env).2 = .error fault ↔
      layerOf user = .error fault ∨ ∃ lower, layerOf user = .ok lower ∧
        (layerOf project = .error fault ∨ ∃ upper, layerOf project = .ok upper ∧
          settingsOf (layered lower upper) env = .error fault) := by
  simp only [load_settings, andThen_eq_error]

/-! ## Settings -/

/-- How a fault of a conversion is reported. -/
def ConversionFault.reported (f : ConversionFault) : LoadFault :=
  if f.isOverflow then .overflow f else .problem (.value f)

/-- How a rule that settings break is reported. -/
def Violation.reported (v : Violation) : LoadFault :=
  if v.isUnwritable then .longKey else .problem (.violation v)

/-- The settings of a document are converted, changed by variables and checked, in this order. -/
theorem settingsOf_eq (entries : Entries) (env : Environment) :
    settingsOf entries env = (do
      let d ← (Draft.ofEntries entries).mapError ConversionFault.reported
      let d ← (d.withVariables env).mapError .problem
      d.check.mapError Violation.reported) := by
  unfold settingsOf
  cases Draft.ofEntries entries with
  | error f => rfl
  | ok d =>
    dsimp only [mapError_ok, bind, Except.bind]
    cases d.withVariables env with
    | error p => rfl
    | ok d =>
      dsimp only [mapError_ok]
      cases d.check <;> rfl

/-- The number of workers that the variable for it asks for, or else another one. -/
def workersIn (env : Environment) (other : Int) : Except Problem Int :=
  match Environment.get? env "REPODOC_WORKERS" with
  | none => .ok other
  | some text =>
    match readInt text.toList with
    | .ok n => .ok n
    | .error _ => .error (.workersVariable text)

/-- Each variable that is not empty stands for its own field. -/
theorem withVariables_eq (d : Draft) (env : Environment) :
    d.withVariables env = (workersIn env d.workers).map fun workers =>
      { d with
        apiUrl := (Environment.get? env "REPODOC_API_URL").getD d.apiUrl
        workers
        level := (Environment.get? env "REPODOC_LOG_LEVEL").getD d.level
        order := (Environment.get? env "REPODOC_EXPORT_ORDER").getD d.order } := by
  unfold Draft.withVariables workersIn
  cases Environment.get? env "REPODOC_WORKERS" with
  | none => rfl
  | some text =>
    dsimp only
    cases readInt text.toList <;> rfl

/-- The only fault of variables is that for the number of workers. -/
theorem withVariables_eq_error {d : Draft} {p : Problem} (h : d.withVariables env = .error p) :
    ∃ text, p = .workersVariable text := by
  rw [withVariables_eq, map_eq_error] at h
  unfold workersIn at h
  split at h
  · cases h
  · next text _ =>
    split at h
    · cases h
    · cases h
      exact ⟨text, rfl⟩

/-- Of documents that can be read no settings fail for what stands in a file as such. -/
theorem settingsOf_eq_error (h : settingsOf entries env = .error fault) :
    (∃ f : ConversionFault, Draft.ofEntries entries = .error f ∧ fault = f.reported) ∨
      (∃ text, fault = .problem (.workersVariable text)) ∨
      ∃ v : Violation, fault = v.reported := by
  simp only [settingsOf_eq, andThen_eq_error, mapError_eq_error] at h
  rcases h with ⟨f, failed, rfl⟩ | ⟨d, -, ⟨p, failed, rfl⟩ | ⟨d', -, v, -, rfl⟩⟩
  · exact .inl ⟨f, failed, rfl⟩
  · obtain ⟨text, rfl⟩ := withVariables_eq_error failed
    exact .inr (.inl ⟨text, rfl⟩)
  · exact .inr (.inr ⟨v, rfl⟩)

/-! ## Checks -/

/-- The draft keeps all rules, and the settings are those that it drafts. -/
structure Draft.Passes (d : Draft) (s : Settings) : Prop where
  apiUrl : ∃ scheme ∈ webSchemes, scheme.toList <+: d.apiUrl.toList
  timeout : d.timeout.isNonPositive = false
  workers : 1 ≤ d.workers
  order : Report.Order.ofLabel? d.order = some s.order
  level : Level.ofLabel? (upper d.level) = some s.level
  drafted : s = { s with
    apiUrl := d.apiUrl, basePath := d.basePath, timeout := d.timeout, language := d.language
    workers := d.workers, failOnErrors := d.failOnErrors, outputDirectory := d.outputDirectory
    json := d.json }

/-- The rules in the order in which they are checked. -/
theorem Draft.check_eq (d : Draft) :
    d.check =
      if !webSchemes.any fun s => s.toList.isPrefixOf d.apiUrl.toList then .error (.apiUrl d.apiUrl)
      else if d.timeout.isNonPositive then .error (.timeout d.timeout)
      else if d.workers < 1 then .error (.workers d.workers)
      else
        match Report.Order.ofLabel? d.order with
        | none => .error (.order d.order)
        | some order =>
          match Level.ofLabel? (upper d.level) with
          | none => .error (.level (upper d.level))
          | some level => .ok {
            apiUrl := d.apiUrl, basePath := d.basePath, timeout := d.timeout, language := d.language
            workers := d.workers, failOnErrors := d.failOnErrors, order
            outputDirectory := d.outputDirectory, level, json := d.json } := by
  unfold Draft.check
  cases Report.Order.ofLabel? d.order with
  | none => rfl
  | some order =>
    dsimp only [bind, Except.bind, pure, Except.pure]
    cases Level.ofLabel? (upper d.level) <;> rfl

theorem Draft.check_eq_ok {d : Draft} {s : Settings} : d.check = .ok s ↔ d.Passes s := by
  have web : (webSchemes.any fun s => s.toList.isPrefixOf d.apiUrl.toList) ↔
      ∃ scheme ∈ webSchemes, scheme.toList <+: d.apiUrl.toList := by
    simp
  rw [Draft.check_eq]
  constructor
  · intro h
    split at h
    · cases h
    · next hweb =>
      split at h
      · cases h
      · next htimeout =>
        split at h
        · cases h
        · next hworkers =>
          split at h
          · cases h
          · next horder =>
            split at h
            · cases h
            · next hlevel =>
              cases h
              exact ⟨web.1 (by simpa using hweb), by simpa using htimeout, Int.not_lt.1 hworkers, horder,
                hlevel, rfl⟩
  · rintro ⟨hweb, timeout, workers, order, level, drafted⟩
    rw [web.2 hweb, timeout, order, level, drafted]
    simp [Int.not_lt.2 workers]

theorem settingsOf_eq_ok {s : Settings} :
    settingsOf entries env = .ok s ↔ ∃ drafted, Draft.ofEntries entries = .ok drafted ∧
      ∃ changed, drafted.withVariables env = .ok changed ∧ changed.Passes s := by
  simp only [settingsOf_eq, andThen_eq_ok, mapError_eq_ok, Draft.check_eq_ok]

end CodeOutline.Config
