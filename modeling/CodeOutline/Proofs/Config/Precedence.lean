import CodeOutline.Proofs.Config.Credential
import CodeOutline.Proofs.Yaml.Keys

/-!
# Which layer a setting comes from

Where the sections are mappings, the settings are a function of ten values, one for each key of a
section: the project's value if it has one, over the user's where both are mappings, or else the
user's (`chosen`). A variable that is not empty replaces what is made of the value. `load_precedence`
says this of files, and that nothing else in them counts: with the exception of keys at which the
search for credentials stops although they are none, `replaced_value_stops_loading`.
-/

namespace CodeOutline.Config

open CodeOutline.Data CodeOutline.Log CodeOutline.Number CodeOutline.Text

/-! ## Layers over each other -/

/-- The value above if there is one, over that below where both are mappings; or else the one below. -/
def chosen (lower upper : Option Datum) : Option Datum :=
  match upper with
  | none => lower
  | some above =>
    match lower, above with
    | some (.map entries), .map others => some (.map (overlay entries others))
    | _, _ => some above

theorem chosen_some (lower : Option Datum) (above : Datum) :
    chosen lower (some above) = some (overlayValue lower above) := by
  cases above with
  | map others =>
    cases lower with
    | none => rfl
    | some below => cases below <;> rfl
  | _ => simp [chosen, overlayValue]

theorem chosen_none (upper : Option Datum) : chosen none upper = upper := by
  cases upper <;> rfl

/-- Of mappings over each other, each name has the value that is chosen for it. -/
theorem get?_overlay (name : String) {upper : Entries} (distinct : Datum.Distinct upper)
    (lower : Entries) :
    Datum.get? name (overlay lower upper) =
      chosen (Datum.get? name lower) (Datum.get? name upper) := by
  induction upper generalizing lower with
  | nil => rfl
  | cons entry rest ih =>
    obtain ⟨key, value⟩ := entry
    rw [overlay, ih (List.pairwise_cons.1 distinct).2]
    by_cases named : key = .text name
    · rw [named] at distinct ⊢
      rw [Datum.get?_put_self, Datum.get?_of_distinct distinct, Datum.get?_cons_self, chosen_some]
      rfl
    · rw [Datum.get?_put_of_ne named, Datum.get?_cons_of_ne named]

/-- The entries of a section. -/
def sectionAt (entries : Entries) (name : String) : Entries :=
  match Datum.get? name entries with
  | some (.map inner) => inner
  | _ => []

/-- The value under a key of a section. -/
def valueAt (entries : Entries) (name key : String) : Option Datum :=
  Datum.get? key (sectionAt entries name)

/-- The sections that are there are mappings. -/
def HasSections (entries : Entries) : Prop :=
  ∀ name ∈ sections, ∀ d, Datum.get? name entries = some d → ∃ inner, d = .map inner

section Overlay

variable {lower upper : Entries} {name : String}

theorem HasSections.get?_cases (h : HasSections lower) (known : name ∈ sections) :
    Datum.get? name lower = none ∨ ∃ inner, Datum.get? name lower = some (.map inner) := by
  cases found : Datum.get? name lower with
  | none => exact .inl rfl
  | some d =>
    obtain ⟨inner, rfl⟩ := h name known d found
    exact .inr ⟨inner, rfl⟩

theorem valueAt_overlay (keyed : Datum.WellKeyed upper) (hl : HasSections lower)
    (hu : HasSections upper) (known : name ∈ sections) (key : String) :
    valueAt (overlay lower upper) name key =
      chosen (valueAt lower name key) (valueAt upper name key) := by
  unfold valueAt sectionAt
  rw [get?_overlay name keyed.distinct]
  rcases hu.get?_cases known with above | ⟨others, above⟩
  · rw [above]
    rfl
  · rcases hl.get?_cases known with below | ⟨entries, below⟩
    · rw [above, below]
      exact (chosen_none _).symm
    · rw [above, below]
      exact get?_overlay key (keyed.inner (Datum.mem_of_get? above)).distinct entries

theorem HasSections.overlay (hl : HasSections lower) (hu : HasSections upper)
    (keyed : Datum.WellKeyed upper) : HasSections (overlay lower upper) := by
  intro name known d found
  rw [get?_overlay name keyed.distinct] at found
  rcases hu.get?_cases known with above | ⟨others, above⟩
  · rw [above] at found
    exact hl name known d found
  · rcases hl.get?_cases known with below | ⟨entries, below⟩
    · rw [above, below] at found
      cases found
      exact ⟨_, rfl⟩
    · rw [above, below] at found
      cases found
      exact ⟨_, rfl⟩

theorem hasSections_nil : HasSections [] := nofun

theorem valueAt_layered (keyedUser : Datum.WellKeyed lower) (keyedProject : Datum.WellKeyed upper)
    (hl : HasSections lower) (hu : HasSections upper) (known : name ∈ sections) (key : String) :
    valueAt (layered lower upper) name key =
      chosen (valueAt lower name key) (valueAt upper name key) := by
  unfold layered
  rw [valueAt_overlay keyedProject (hasSections_nil.overlay hl keyedUser) hu known,
    valueAt_overlay keyedUser hasSections_nil hl known]
  congr 1
  exact chosen_none _

end Overlay

/-! ## Settings of values -/

section Values

variable {α : Type}

/-- A value as a setting, or what the setting is without one. -/
def converted (value : Option Datum) (convert : Datum → Except ConversionFault α) (other : α) :
    Except ConversionFault α :=
  match value with
  | none => .ok other
  | some d => convert d

/-- The settings that values under the keys of sections make of the defaults. -/
def Draft.ofValues (value : String → String → Option Datum) : Except ConversionFault Draft := do
  let apiUrl ← converted (value "github" "api_url") textOf Remote.defaultApiUrl
  let basePath ← converted (value "github" "base_path") textOf Remote.defaultBasePath
  let timeout ← converted (value "github" "timeout") floatOf (.ofDecimal false 30 0)
  let language ← converted (value "ingest" "language") textOf "java"
  let workers ← converted (value "ingest" "workers") intOf 4
  let failOnErrors ← converted (value "ingest" "fail_on_errors") (.ok ·.isTrue) false
  let order ← converted (value "export" "order") textOf "insertion"
  let outputDirectory ← converted (value "export" "output_dir") textOf "docs"
  let level ← converted (value "logging" "level") textOf "WARNING"
  let json ← converted (value "logging" "json") (.ok ·.isTrue) false
  return { apiUrl, basePath, timeout, language, workers, failOnErrors, order, outputDirectory, level
           json }

/-- The keys that are looked up, each in its section. -/
def settingKeys : List (String × String) :=
  [("github", "api_url"), ("github", "base_path"), ("github", "timeout"), ("ingest", "language"),
    ("ingest", "workers"), ("ingest", "fail_on_errors"), ("export", "order"),
    ("export", "output_dir"), ("logging", "level"), ("logging", "json")]

theorem Draft.ofValues_congr {value value' : String → String → Option Datum}
    (same : ∀ place ∈ settingKeys, value' place.1 place.2 = value place.1 place.2) :
    Draft.ofValues value' = Draft.ofValues value := by
  simp only [settingKeys, List.forall_mem_cons] at same
  obtain ⟨h₁, h₂, h₃, h₄, h₅, h₆, h₇, h₈, h₉, h₁₀, -⟩ := same
  unfold Draft.ofValues
  rw [h₁, h₂, h₃, h₄, h₅, h₆, h₇, h₈, h₉, h₁₀]

/-- A section that is not there changes as little as an empty one. -/
theorem withSection_eq {entries : Entries} (h : HasSections entries) {name : String}
    (known : name ∈ sections) {d : Draft}
    {change : Entries → Draft → Except ConversionFault Draft} (idle : change [] d = .ok d) :
    withSection entries name d change = change (sectionAt entries name) d := by
  unfold withSection sectionAt
  rcases h.get?_cases known with found | ⟨inner, found⟩
  · rw [found]
    exact idle.symm
  · rw [found]
    rfl

theorem Draft.ofEntries_eq {entries : Entries} (h : HasSections entries) :
    Draft.ofEntries entries = Draft.ofValues (valueAt entries) := by
  unfold Draft.ofEntries
  rw [withSection_eq h (by decide) rfl]
  conv in withSection entries "ingest" _ _ => rw [withSection_eq h (by decide) rfl]
  conv in withSection entries "export" _ _ => rw [withSection_eq h (by decide) rfl]
  conv in withSection entries "logging" _ _ => rw [withSection_eq h (by decide) rfl]
  simp only [bind_assoc, pure_bind]
  rfl

/-- The settings of values under the keys of sections and of variables. -/
def settingsOfValues (value : String → String → Option Datum) (env : Environment) :
    Except LoadFault Settings := do
  let d ← (Draft.ofValues value).mapError ConversionFault.reported
  let d ← (d.withVariables env).mapError .problem
  d.check.mapError Violation.reported

theorem settingsOf_eq_ofValues {entries : Entries} (h : HasSections entries) (env : Environment) :
    settingsOf entries env = settingsOfValues (valueAt entries) env := by
  rw [settingsOf_eq, Draft.ofEntries_eq h]
  rfl

/-- Each setting is what a variable says, or else what is made of its value, or else its default. -/
structure Settings.Follows (value : String → String → Option Datum) (env : Environment)
    (s : Settings) : Prop where
  apiUrl : ∃ url, converted (value "github" "api_url") textOf Remote.defaultApiUrl = .ok url ∧
    s.apiUrl = (Environment.get? env "REPODOC_API_URL").getD url
  basePath : converted (value "github" "base_path") textOf Remote.defaultBasePath = .ok s.basePath
  timeout : converted (value "github" "timeout") floatOf (.ofDecimal false 30 0) = .ok s.timeout
  language : converted (value "ingest" "language") textOf "java" = .ok s.language
  workers : ∃ n, converted (value "ingest" "workers") intOf 4 = .ok n ∧
    workersIn env n = .ok s.workers
  failOnErrors :
    converted (value "ingest" "fail_on_errors") (.ok ·.isTrue) false = .ok s.failOnErrors
  order : ∃ label, converted (value "export" "order") textOf "insertion" = .ok label ∧
    Report.Order.ofLabel? ((Environment.get? env "REPODOC_EXPORT_ORDER").getD label) = some s.order
  outputDirectory : converted (value "export" "output_dir") textOf "docs" = .ok s.outputDirectory
  level : ∃ label, converted (value "logging" "level") textOf "WARNING" = .ok label ∧
    Level.ofLabel? (upper ((Environment.get? env "REPODOC_LOG_LEVEL").getD label)) = some s.level
  json : converted (value "logging" "json") (.ok ·.isTrue) false = .ok s.json

/-- The settings keep the rules. -/
structure Settings.Valid (s : Settings) : Prop where
  apiUrl : ∃ scheme ∈ webSchemes, scheme.toList <+: s.apiUrl.toList
  timeout : s.timeout.isNonPositive = false
  workers : 1 ≤ s.workers

theorem settingsOfValues_eq_ok {value : String → String → Option Datum} {env : Environment}
    {s : Settings} : settingsOfValues value env = .ok s ↔ s.Follows value env ∧ s.Valid := by
  unfold settingsOfValues Draft.ofValues
  simp only [andThen_eq_ok, mapError_eq_ok, withVariables_eq, map_eq_ok, Draft.check_eq_ok]
  constructor
  · rintro ⟨d, ⟨apiUrl, hapiUrl, basePath, hbasePath, timeout, htimeout, language, hlanguage, workers,
      hworkers, failOnErrors, hfailOnErrors, order, horder, outputDirectory, houtput, level, hlevel,
      json, hjson, made⟩, d', ⟨n, hn, changed⟩, passes⟩
    cases made
    cases changed
    obtain ⟨web, positive, enough, named, leveled, drafted⟩ := passes
    rw [drafted]
    exact ⟨⟨⟨_, hapiUrl, rfl⟩, hbasePath, htimeout, hlanguage, ⟨_, hworkers, hn⟩, hfailOnErrors,
      ⟨_, horder, named⟩, houtput, ⟨_, hlevel, leveled⟩, hjson⟩, web, positive, enough⟩
  · rintro ⟨⟨⟨url, hurl, apiUrl⟩, hbasePath, htimeout, hlanguage, ⟨workers, hworkers, hn⟩,
      hfailOnErrors, ⟨order, horder, named⟩, houtput, ⟨level, hlevel, leveled⟩, hjson⟩, web, positive,
      enough⟩
    refine ⟨_, ⟨_, hurl, _, hbasePath, _, htimeout, _, hlanguage, _, hworkers, _, hfailOnErrors, _,
      horder, _, houtput, _, hlevel, _, hjson, rfl⟩, _, ⟨_, hn, rfl⟩, ?_⟩
    rw [apiUrl] at web
    exact ⟨web, positive, enough, named, leveled, by rw [← apiUrl]⟩

end Values

/-! ## Stops -/

/-- What the search for credentials stops at where there are none. -/
def Sight.stop? : Sight → Option LoadFault
  | .entry _ key => if key.hasLongInteger then some .longKey else none
  | .enclosure => some .bottomless

/-- The first fault of what the search meets in a document without credentials. -/
def stopOf (entries : Entries) : Option LoadFault := (sightsOf [] entries).findSome? Sight.stop?

variable {user project file : Option SettingsFile} {entries lower upper : Entries}

/-- The keys of the document that the search meets are none of credentials. -/
def NamesNoCredential (entries : Entries) : Prop :=
  ∀ above key, KeyAt entries above key → ¬ NamesCredential key.display

theorem findSome?_congr {α β : Type} {f g : α → Option β} :
    ∀ {l : List α}, (∀ a ∈ l, f a = g a) → l.findSome? f = l.findSome? g
  | [], _ => rfl
  | a :: rest, h => by
    rw [List.findSome?_cons, List.findSome?_cons, h a List.mem_cons_self,
      findSome?_congr fun b hb => h b (List.mem_cons_of_mem a hb)]

theorem stopOf_eq (h : NamesNoCredential entries) (path : Files.Path) :
    (findInEntries? none entries).map (·.fault path) = stopOf entries := by
  rw [findInEntries?_top, List.map_findSome?]
  refine findSome?_congr fun s met => ?_
  cases s with
  | enclosure => rfl
  | entry above key =>
    obtain ⟨below, -, reached⟩ := (mem_sightsOf entries).1 met
    have other : ¬ isCredentialName key.display :=
      fun named => h below key reached ((isCredentialName_iff _).1 named)
    simp only [Function.comp_apply, Sight.finding?, Sight.stop?, if_neg other]
    split <;> rfl

/-- What the layer of a document without credentials is. -/
theorem layerOf_eq (read : documentOf file = .ok entries) (h : NamesNoCredential entries) :
    layerOf file = match stopOf entries with
      | none => .ok entries
      | some fault => .error fault := by
  cases found : findInEntries? none entries with
  | none =>
    have clear : stopOf entries = none := by rw [← stopOf_eq h ⟨"", []⟩, found]; rfl
    rw [clear]
    exact layerOf_eq_ok.2 ⟨read, found⟩
  | some finding =>
    cases file with
    | none =>
      cases read
      cases found
    | some f =>
      have stopped : stopOf entries = some (finding.fault f.path) := by
        rw [← stopOf_eq h f.path, found]
        rfl
      rw [stopped]
      exact layerOf_eq_error.2 (.inr ⟨f, entries, finding, rfl, read, found, rfl⟩)

/-! ## Files -/

theorem wellKeyed_documentOf (read : documentOf file = .ok entries) : Datum.WellKeyed entries := by
  cases file with
  | none =>
    cases read
    exact .nil
  | some f =>
    change f.read = .ok entries at read
    unfold SettingsFile.read at read
    split at read
    · cases read
    · split at read
      · cases read
      · cases read
      · cases read
      · next document made =>
        cases read
        exact Yaml.wellKeyed_read made
      · split at read
        · cases read
        · cases read
          exact .nil

/-- A file with a document whose sections are mappings, and in which no key is that of a credential. -/
structure Usable (file : Option SettingsFile) (entries : Entries) : Prop where
  read : documentOf file = .ok entries
  mappings : HasSections entries
  names : NamesNoCredential entries

/-- The values under the keys of sections that are chosen from both files. -/
def choice (lower upper : Entries) (name key : String) : Option Datum :=
  chosen (valueAt lower name key) (valueAt upper name key)

theorem load_eq (hu : Usable user lower) (hp : Usable project upper) (env : Environment) :
    (load user project env).2 = match (stopOf lower).or (stopOf upper) with
      | some fault => .error fault
      | none => settingsOfValues (choice lower upper) env := by
  rw [load_settings, layerOf_eq hu.read hu.names, layerOf_eq hp.read hp.names]
  cases stopOf lower with
  | some fault => rfl
  | none =>
    cases stopOf upper with
    | some fault => rfl
    | none =>
      have keyedUser := wellKeyed_documentOf hu.read
      have keyedProject := wellKeyed_documentOf hp.read
      have mappings : HasSections (layered lower upper) :=
        (hasSections_nil.overlay hu.mappings keyedUser).overlay hp.mappings keyedProject
      have values : ∀ place ∈ settingKeys,
          valueAt (layered lower upper) place.1 place.2 = choice lower upper place.1 place.2 := by
        intro place known
        have inSection : place.1 ∈ sections := by
          revert place
          decide
        exact valueAt_layered keyedUser keyedProject hu.mappings hp.mappings inSection place.2
      change settingsOf (layered lower upper) env = _
      rw [settingsOf_eq_ofValues mappings]
      unfold settingsOfValues
      rw [Draft.ofValues_congr values]
      rfl

/-- A document of finite depth without keys that are too long to be written stops nothing. -/
theorem stopOf_eq_none (finite : entriesFinite entries)
    (short : ∀ above key, KeyAt entries above key → key.hasLongInteger = false) :
    stopOf entries = none := by
  refine List.findSome?_eq_none_iff.2 fun s met => ?_
  cases s with
  | enclosure => exact absurd met (enclosure_notMem_sightsOf entries finite)
  | entry above key =>
    obtain ⟨below, -, reached⟩ := (mem_sightsOf entries).1 met
    simp [Sight.stop?, short below key reached]

/-- Of usable files, the first thing that the search for credentials stops at decides; the user's file
comes first. Where it stops at nothing, the settings are a function of the values that are chosen for
the ten keys and of the variables, each setting of its own value and its own variable. So nothing else
in the files counts, an unknown section or key as little as a value that is not chosen. -/
theorem load_precedence (hu : Usable user lower) (hp : Usable project upper) (env : Environment) :
    ((load user project env).2 = match (stopOf lower).or (stopOf upper) with
      | some fault => .error fault
      | none => settingsOfValues (choice lower upper) env) ∧
    (∀ s, (load user project env).2 = .ok s ↔
      stopOf lower = none ∧ stopOf upper = none ∧ s.Follows (choice lower upper) env ∧ s.Valid) ∧
    ∀ {user' project' : Option SettingsFile} {lower' upper' : Entries},
      Usable user' lower' → Usable project' upper' →
      (stopOf lower').or (stopOf upper') = (stopOf lower).or (stopOf upper) →
      (∀ place ∈ settingKeys,
        choice lower' upper' place.1 place.2 = choice lower upper place.1 place.2) →
      (load user' project' env).2 = (load user project env).2 := by
  refine ⟨load_eq hu hp env, ?_, ?_⟩
  · intro s
    rw [load_eq hu hp env, ← settingsOfValues_eq_ok, ← and_assoc, ← Option.or_eq_none_iff]
    cases (stopOf lower).or (stopOf upper) with
    | none => simp
    | some fault => simp
  · intro user' project' lower' upper' hu' hp' stops values
    rw [load_eq hu hp env, load_eq hu' hp' env, stops]
    unfold settingsOfValues
    rw [Draft.ofValues_congr values]

/-! ## Replaced values -/

theorem namesNoCredential_iff :
    NamesNoCredential entries ↔ ∀ key ∈ keysOf entries, ¬ isCredentialName key.display := by
  simp only [NamesNoCredential, mem_keysOf, isCredentialName_iff]
  exact ⟨fun h key ⟨above, reached⟩ => h above key reached, fun h above key reached =>
    h key ⟨above, reached⟩⟩

/-- A document that only says something of the number of workers. -/
def workersDocument (value : Datum) : Entries :=
  [(.text "ingest", .map [(.text "workers", value)])]

theorem hasSections_workersDocument (value : Datum) : HasSections (workersDocument value) := by
  intro name _ d found
  cases List.mem_singleton.1 (Datum.mem_of_get? found)
  exact ⟨_, rfl⟩

theorem usable_workersDocument {value : Datum} (read : documentOf file = .ok (workersDocument value))
    (names : ∀ key ∈ keysOf (workersDocument value), ¬ isCredentialName key.display) :
    Usable file (workersDocument value) :=
  ⟨read, hasSections_workersDocument value, namesNoCredential_iff.2 names⟩

theorem usable_none : Usable none [] := ⟨rfl, hasSections_nil, fun _ _ => nofun⟩

def threeWorkers : SettingsFile := fileOf "repodoc.yaml" "ingest:\n  workers: 3\n"

theorem usable_threeWorkers : Usable (some threeWorkers) (workersDocument (.int 3)) :=
  usable_workersDocument (eq_ok_of_toOption (by decide +kernel)) (by decide)

/-- A number of workers that is none. -/
def manyWorkers : SettingsFile := fileOf "config.yaml" "ingest:\n  workers: many\n"

theorem usable_manyWorkers : Usable (some manyWorkers) (workersDocument (.text "many")) :=
  usable_workersDocument (eq_ok_of_toOption (by decide +kernel)) (by decide)

/-- A mapping that stands in itself. -/
def endlessWorkers : SettingsFile := fileOf "config.yaml" "ingest:\n  workers: &a\n    b: *a\n"

theorem usable_endlessWorkers :
    Usable (some endlessWorkers) (workersDocument (.map [(.text "b", .enclosing true)])) :=
  usable_workersDocument (eq_ok_of_toOption (by decide +kernel)) (by decide)

/-- The project's number of workers and nothing but the default otherwise, with a level from a
variable. -/
def threeWorkersSettings : Settings where
  apiUrl := Remote.defaultApiUrl
  basePath := Remote.defaultBasePath
  timeout := .ofDecimal false 30 0
  language := "java"
  workers := 3
  failOnErrors := false
  order := .insertion
  outputDirectory := "docs"
  level := .debug
  json := false

/-- The level that a variable asks for. -/
def debugLevel : Environment := [("REPODOC_LOG_LEVEL", "debug")]

theorem threeWorkersSettings_follow :
    threeWorkersSettings.Follows (choice [] (workersDocument (.int 3))) debugLevel := by
  refine ⟨⟨_, rfl, rfl⟩, rfl, rfl, rfl, ⟨_, rfl, rfl⟩, rfl, ⟨_, rfl, rfl⟩, rfl, ⟨_, rfl, ?_⟩, rfl⟩
  decide +kernel

theorem threeWorkersSettings_valid : threeWorkersSettings.Valid := by
  have web : "https://".toList <+: threeWorkersSettings.apiUrl.toList := by decide
  exact ⟨⟨_, List.mem_cons_self, web⟩, by decide +kernel, by decide⟩

/-- Whatever the user's number of workers is, the project's stands in its place. -/
theorem choice_threeWorkers (value : Datum) : ∀ place ∈ settingKeys,
    choice (workersDocument value) (workersDocument (.int 3)) place.1 place.2 =
      choice [] (workersDocument (.int 3)) place.1 place.2 := by
  simp only [settingKeys, List.forall_mem_cons]
  refine ⟨rfl, rfl, rfl, rfl, ?_, rfl, rfl, rfl, rfl, rfl, nofun⟩
  cases value <;> rfl

/-- The user's number of workers is none, and the project's stands in its place. -/
theorem load_precedence_of_threeWorkers :
    Usable (some manyWorkers) (workersDocument (.text "many")) ∧
      Usable (some threeWorkers) (workersDocument (.int 3)) ∧
      (load (some manyWorkers) (some threeWorkers) debugLevel).2 = .ok threeWorkersSettings := by
  obtain ⟨-, settings, same⟩ := load_precedence usable_none usable_threeWorkers debugLevel
  refine ⟨usable_manyWorkers, usable_threeWorkers, ?_⟩
  rw [same usable_manyWorkers usable_threeWorkers rfl (choice_threeWorkers _), settings]
  exact ⟨rfl, rfl, threeWorkersSettings_follow, threeWorkersSettings_valid⟩

/-- A value that the project's stands in the place of ends the loading, where the search for
credentials does not come to its end. -/
theorem replaced_value_stops_loading :
    ∃ lower upper, Usable (some endlessWorkers) lower ∧ Usable (some threeWorkers) upper ∧
      (∀ place ∈ settingKeys,
        choice lower upper place.1 place.2 = choice [] upper place.1 place.2) ∧
      (load none (some threeWorkers) debugLevel).2 = .ok threeWorkersSettings ∧
      (load (some endlessWorkers) (some threeWorkers) debugLevel).2 = .error .bottomless := by
  refine ⟨_, _, usable_endlessWorkers, usable_threeWorkers, choice_threeWorkers _, ?_, ?_⟩
  · have alone : (load none (some threeWorkers) debugLevel).2 = _ :=
      load_eq usable_none usable_threeWorkers debugLevel
    rw [alone]
    exact settingsOfValues_eq_ok.2 ⟨threeWorkersSettings_follow, threeWorkersSettings_valid⟩
  · have both : (load (some endlessWorkers) (some threeWorkers) debugLevel).2 = _ :=
      load_eq usable_endlessWorkers usable_threeWorkers debugLevel
    rw [both]
    rfl

end CodeOutline.Config
