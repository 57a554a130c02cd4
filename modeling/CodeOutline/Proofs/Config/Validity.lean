import CodeOutline.Proofs.Config.Precedence

/-!
# How loading ends

Whatever the files and the variables hold, loading ends with settings that can be used, with a problem
that the user can mend, or in one of the ways that `Escapes` lists; and each of these ways is taken
(`load_outcome`). What can be used is `InRange`: a timeout is more than zero, or else not a number, as
`nan_timeout_is_accepted` shows.
-/

namespace CodeOutline.Config

open CodeOutline.Data CodeOutline.Log CodeOutline.Number CodeOutline.Text

/-! ## Settings that can be used -/

/-- The number is more than zero. -/
def IsPositive : Binary64 → Prop
  | .nan => False
  | .infinite negative => negative = false
  | .finite negative mantissa _ => negative = false ∧ 0 < mantissa

theorem isNonPositive_eq_false {x : Binary64} :
    x.isNonPositive = false ↔ x = .nan ∨ IsPositive x := by
  cases x with
  | nan => simp [Binary64.isNonPositive]
  | infinite negative => simp [Binary64.isNonPositive, IsPositive]
  | finite negative mantissa exponent =>
    simp [Binary64.isNonPositive, IsPositive, Nat.pos_iff_ne_zero]

/-- What is checked of settings. -/
structure Settings.InRange (s : Settings) : Prop where
  apiUrl : "http://".toList <+: s.apiUrl.toList ∨ "https://".toList <+: s.apiUrl.toList
  timeout : s.timeout = .nan ∨ IsPositive s.timeout
  workers : 1 ≤ s.workers
  order : s.order.label ∈ ["insertion", "name"]
  level : s.level.label ∈ ["DEBUG", "INFO", "WARNING", "ERROR", "CRITICAL"]

theorem Draft.Passes.inRange {d : Draft} {s : Settings} (h : d.Passes s) : s.InRange := by
  obtain ⟨⟨scheme, known, web⟩, timeout, workers, -, -, drafted⟩ := h
  have order : s.order.label ∈ ["insertion", "name"] := by
    cases s.order <;> decide
  have level : s.level.label ∈ ["DEBUG", "INFO", "WARNING", "ERROR", "CRITICAL"] := by
    cases s.level <;> decide
  rw [drafted]
  refine ⟨?_, isNonPositive_eq_false.1 timeout, workers, order, level⟩
  rcases List.mem_cons.1 known with rfl | known
  · exact .inr web
  · cases List.mem_singleton.1 known
    exact .inl web

/-! ## Numbers out of reach -/

/-- A value is a number beyond the range of what its setting asks for. -/
inductive BeyondRange (entries : Entries) : ConversionFault → Prop where
  /-- An integer that no floating-point number comes near to. -/
  | timeout {i : Int} (value : valueAt entries "github" "timeout" = some (.int i))
      (large : Binary64.ofInt? i = none) : BeyondRange entries .large
  | workers {negative : Bool}
      (value : valueAt entries "ingest" "workers" = some (.float (.infinite negative))) :
      BeyondRange entries .infinite

theorem BeyondRange.isOverflow {entries : Entries} {f : ConversionFault}
    (h : BeyondRange entries f) : f.isOverflow := by
  cases h <;> rfl

section Conversions

variable {d : Datum} {f : ConversionFault}

theorem not_isOverflow_of_textOf (h : textOf d = .error f) : f.isOverflow = false := by
  unfold textOf at h
  split at h
  · cases h
    rfl
  · cases h

theorem not_isOverflow_of_floatOfText {cs : List Char} {shown : String}
    (h : floatOfText cs shown = .error f) : f.isOverflow = false := by
  unfold floatOfText at h
  split at h
  · cases h
  · cases h
    rfl

theorem not_isOverflow_of_intOfText {cs : List Char} {shown : String}
    (h : intOfText cs shown = .error f) : f.isOverflow = false := by
  unfold intOfText at h
  split at h
  · cases h
  · cases h
    rfl
  · cases h
    rfl

theorem large_of_floatOf (h : floatOf d = .error f) (beyond : f.isOverflow) :
    f = .large ∧ ∃ i, d = .int i ∧ Binary64.ofInt? i = none := by
  cases d with
  | float x => cases h
  | bool b => cases h
  | int i =>
    simp only [floatOf] at h
    split at h
    · cases h
    · next large =>
      cases h
      exact ⟨rfl, i, rfl, large⟩
  | text s =>
    rw [not_isOverflow_of_floatOfText h] at beyond
    cases beyond
  | bytes octets =>
    simp only [floatOf] at h
    split at h
    · rw [not_isOverflow_of_floatOfText h] at beyond
      cases beyond
    · cases h
      cases beyond
  | _ =>
    cases h
    cases beyond

theorem infinite_of_intOf (h : intOf d = .error f) (beyond : f.isOverflow) :
    f = .infinite ∧ ∃ negative, d = .float (.infinite negative) := by
  cases d with
  | int i => cases h
  | bool b => cases h
  | float x =>
    cases x with
    | nan =>
      cases h
      cases beyond
    | infinite negative =>
      cases h
      exact ⟨rfl, negative, rfl⟩
    | finite negative mantissa exponent => cases h
  | text s =>
    rw [not_isOverflow_of_intOfText h] at beyond
    cases beyond
  | bytes octets =>
    simp only [intOf] at h
    split at h
    · rw [not_isOverflow_of_intOfText h] at beyond
      cases beyond
    · cases h
      cases beyond
  | _ =>
    cases h
    cases beyond

/-- A setting fails where its value does. -/
theorem setting_eq_error {α : Type} {entries : Entries} {name : String}
    {convert : Datum → Except ConversionFault α} {other : α}
    (h : setting entries name convert other = .error f) :
    ∃ d, Datum.get? name entries = some d ∧ convert d = .error f := by
  unfold setting at h
  split at h
  · cases h
  · next d found => exact ⟨d, found, h⟩

/-- A section fails for what it is or for what is made of it. -/
theorem withSection_eq_error {entries : Entries} {name : String} {draft : Draft}
    {change : Entries → Draft → Except ConversionFault Draft}
    (h : withSection entries name draft change = .error f) (beyond : f.isOverflow) :
    change (sectionAt entries name) draft = .error f := by
  unfold withSection at h
  split at h
  · cases h
  · next v found =>
    unfold sectionAt
    rw [found]
    cases v with
    | map inner => exact h
    | _ =>
      cases h
      cases beyond

/-- No text of a setting is beyond a range. -/
theorem not_isOverflow_of_text {entries : Entries} {name other : String}
    (h : setting entries name textOf other = .error f) : f.isOverflow = false := by
  obtain ⟨d, -, failed⟩ := setting_eq_error h
  exact not_isOverflow_of_textOf failed

theorem beyondRange_of_ofEntries {entries : Entries} (h : Draft.ofEntries entries = .error f)
    (beyond : f.isOverflow) : BeyondRange entries f := by
  have text {entries : Entries} {name other : String} :
      setting entries name textOf other ≠ .error f := by
    intro h
    rw [not_isOverflow_of_text h] at beyond
    cases beyond
  have truth {entries : Entries} {name : String} {other : Bool} :
      setting entries name (.ok ·.isTrue) other ≠ .error f := by
    intro h
    obtain ⟨d, -, failed⟩ := setting_eq_error h
    cases failed
  unfold Draft.ofEntries at h
  simp only [andThen_eq_error] at h
  rcases h with github | ⟨d, -, ingest | ⟨d, -, export_ | ⟨d, -, logging⟩⟩⟩
  · have failed := withSection_eq_error github beyond
    simp only [andThen_eq_error, text, false_or] at failed
    obtain ⟨_, -, _, -, timeout | ⟨_, -, last⟩⟩ := failed
    · obtain ⟨v, value, failed⟩ := setting_eq_error timeout
      obtain ⟨rfl, i, rfl, large⟩ := large_of_floatOf failed beyond
      exact .timeout value large
    · cases last
  · have failed := withSection_eq_error ingest beyond
    simp only [andThen_eq_error, text, truth, false_or] at failed
    obtain ⟨_, -, workers | ⟨_, -, _, -, last⟩⟩ := failed
    · obtain ⟨v, value, failed⟩ := setting_eq_error workers
      obtain ⟨rfl, negative, rfl⟩ := infinite_of_intOf failed beyond
      exact .workers value
    · cases last
  · have failed := withSection_eq_error export_ beyond
    simp only [andThen_eq_error, text, false_or] at failed
    obtain ⟨_, -, _, -, last⟩ := failed
    cases last
  · have failed := withSection_eq_error logging beyond
    simp only [andThen_eq_error, text, truth, false_or] at failed
    obtain ⟨_, -, _, -, last⟩ := failed
    cases last

/-! ## Numbers that are none -/

theorem withSection_eq_ok {entries : Entries} {name : String} {draft result : Draft}
    {change : Entries → Draft → Except ConversionFault Draft} (idle : change [] draft = .ok draft)
    (h : withSection entries name draft change = .ok result) :
    change (sectionAt entries name) draft = .ok result := by
  unfold withSection at h
  unfold sectionAt
  split at h
  · next missing =>
    rw [missing]
    exact idle.trans h
  · next v found =>
    rw [found]
    cases v with
    | map inner => exact h
    | _ => cases h

/-- The timeout is what is made of its value. -/
theorem timeout_of_ofEntries {entries : Entries} {draft : Draft}
    (h : Draft.ofEntries entries = .ok draft) :
    converted (valueAt entries "github" "timeout") floatOf (.ofDecimal false 30 0) =
      .ok draft.timeout := by
  unfold Draft.ofEntries at h
  simp only [andThen_eq_ok] at h
  obtain ⟨d₁, github, d₂, ingest, d₃, export_, logging⟩ := h
  have github := withSection_eq_ok rfl github
  have ingest := withSection_eq_ok rfl ingest
  have export_ := withSection_eq_ok rfl export_
  have logging := withSection_eq_ok rfl logging
  simp only [andThen_eq_ok] at github ingest export_ logging
  obtain ⟨_, -, _, -, timeout, value, made₁⟩ := github
  obtain ⟨_, -, _, -, _, -, made₂⟩ := ingest
  obtain ⟨_, -, _, -, made₃⟩ := export_
  obtain ⟨_, -, _, -, made₄⟩ := logging
  cases made₁
  cases made₂
  cases made₃
  cases made₄
  exact value

/-- A timeout is not a number only where its value stands for none. -/
theorem nan_iff_of_converted {value : Option Datum} {x : Binary64}
    (h : converted value floatOf (.ofDecimal false 30 0) = .ok x) :
    x = .nan ↔ ∃ v, value = some v ∧ floatOf v = .ok .nan := by
  cases value with
  | none =>
    have default : Binary64.ofDecimal false 30 0 ≠ .nan := by decide +kernel
    cases h
    simp [default]
  | some v =>
    have made : floatOf v = .ok x := h
    simp [made]

end Conversions

/-! ## Files -/

/-- A file that is there ends the loading in a way that names no problem. -/
inductive FileEscapes (file : SettingsFile) : LoadFault → Prop where
  | encoding {f : EncodingFault} (undecodable : Utf8.decode file.octets = .error f) :
      FileEscapes file (.encoding f)
  /-- A scalar that is written like a value of its kind and is none. -/
  | scalar {cs : List Char} {f : Yaml.Fault} (decoded : Utf8.decode file.octets = .ok cs)
      (misread : Yaml.read (unifiedBreaks cs) = .error f)
      (written : f ≠ .shape ∧ f ≠ .read .malformed) : FileEscapes file (.scalar f)
  /-- The search for credentials comes to a key that cannot be written. -/
  | longKey {entries : Entries} {before after : List Sight} {above : List Datum} {key : Datum}
      (read : file.read = .ok entries)
      (order : sightsOf [] entries = before ++ .entry above key :: after)
      (quiet : ∀ s ∈ before, s.IsQuiet) (long : key.hasLongInteger) : FileEscapes file .longKey
  /-- The search for credentials comes to a mapping that stands in itself. -/
  | bottomless {entries : Entries} {before after : List Sight} (read : file.read = .ok entries)
      (order : sightsOf [] entries = before ++ .enclosure :: after)
      (quiet : ∀ s ∈ before, s.IsQuiet) : FileEscapes file .bottomless

section Files

variable {file : SettingsFile} {fault : LoadFault}

theorem read_eq_error (h : file.read = .error fault) :
    FileEscapes file fault ∨ ∃ p, fault = .problem p := by
  unfold SettingsFile.read at h
  split at h
  · next undecodable =>
    cases h
    exact .inl (.encoding undecodable)
  · next decoded =>
    split at h
    · cases h
      exact .inr ⟨_, rfl⟩
    · cases h
      exact .inr ⟨_, rfl⟩
    · next malformed shape misread =>
      cases h
      exact .inl (.scalar decoded misread ⟨shape, malformed⟩)
    · cases h
    · split at h
      · cases h
        exact .inr ⟨_, rfl⟩
      · cases h

theorem layerOf_error_cases (h : layerOf (some file) = .error fault) :
    FileEscapes file fault ∨ ∃ p, fault = .problem p := by
  rcases layerOf_eq_error.1 h with unread | ⟨f, entries, finding, ⟨⟩, read, found, rfl⟩
  · exact read_eq_error unread
  · rw [findInEntries?_top] at found
    obtain ⟨before, s, after, order, told, quiet⟩ := List.findSome?_eq_some_iff.1 found
    simp only [Sight.finding?_eq_none_iff] at quiet
    cases finding with
    | credential text => exact .inr ⟨_, rfl⟩
    | longKey =>
      rcases Sight.finding?_cases told with ⟨above, key, rfl, long, -⟩ | ⟨text, ⟨⟩⟩ | rfl
      · exact .inl (.longKey read order quiet long)
      · cases told
    | bottomless =>
      rcases Sight.finding?_cases told with ⟨above, key, -, -, ⟨⟩⟩ | ⟨text, ⟨⟩⟩ | rfl
      exact .inl (.bottomless read order quiet)

theorem FileEscapes.layerOf (h : FileEscapes file fault) : layerOf (some file) = .error fault := by
  have stops {entries : Entries} {before after : List Sight} {s : Sight} {finding : Finding}
      (read : file.read = .ok entries) (order : sightsOf [] entries = before ++ s :: after)
      (quiet : ∀ s ∈ before, s.IsQuiet) (told : s.finding? = some finding) :
      Config.layerOf (some file) = .error (finding.fault file.path) := by
    have found : findInEntries? none entries = some finding := by
      rw [findInEntries?_top]
      refine List.findSome?_eq_some_iff.2 ⟨before, s, after, order, told, fun t ht => ?_⟩
      exact Sight.finding?_eq_none_iff.2 (quiet t ht)
    exact layerOf_eq_error.2 (.inr ⟨file, entries, finding, rfl, read, found, rfl⟩)
  cases h with
  | encoding undecodable =>
    refine layerOf_eq_error.2 (.inl ?_)
    simp only [documentOf, SettingsFile.read, undecodable]
  | scalar decoded misread written =>
    refine layerOf_eq_error.2 (.inl ?_)
    simp only [documentOf, SettingsFile.read, decoded, misread]
    split
    · next same => cases same; exact absurd rfl written.2
    · next same => cases same; exact absurd rfl written.1
    · next same => cases same; rfl
    · next same => cases same
    · next same => cases same
  | longKey read order quiet long =>
    have told {above : List Datum} {key : Datum} (long : key.hasLongInteger) :
        (Sight.entry above key).finding? = some .longKey :=
      if_pos long
    exact stops read order quiet (told long)
  | bottomless read order quiet => exact stops read order quiet rfl

theorem FileEscapes.not_problem (h : FileEscapes file fault) (p : Problem) : fault ≠ .problem p := by
  cases h <;> exact nofun

end Files

/-! ## Loading -/

/-- Loading ends in a way that names no problem. -/
inductive Escapes (user project : Option SettingsFile) (env : Environment) : LoadFault → Prop where
  | user {file : SettingsFile} {fault : LoadFault} (here : user = some file)
      (escapes : FileEscapes file fault) : Escapes user project env fault
  | project {file : SettingsFile} {fault : LoadFault} {lower : Entries}
      (accepted : layerOf user = .ok lower) (here : project = some file)
      (escapes : FileEscapes file fault) : Escapes user project env fault
  /-- A number that no conversion is prepared for. -/
  | overflow {lower upper : Entries} {f : ConversionFault} (below : layerOf user = .ok lower)
      (above : layerOf project = .ok upper) (beyond : BeyondRange (layered lower upper) f)
      (failed : Draft.ofEntries (layered lower upper) = .error f) :
      Escapes user project env (.overflow f)
  /-- A number of workers that is refused and cannot be written. -/
  | workers {lower upper : Entries} {made changed : Draft} {n : Int}
      (below : layerOf user = .ok lower) (above : layerOf project = .ok upper)
      (made_ : Draft.ofEntries (layered lower upper) = .ok made)
      (changed_ : made.withVariables env = .ok changed) (refused : changed.check = .error (.workers n))
      (long : Datum.isLongInteger n) : Escapes user project env .longKey

section Loading

variable {user project : Option SettingsFile} {env : Environment} {fault : LoadFault}

/-- The first rule that is broken is reported, and so is a number that is too long to be. -/
theorem violation_reported_cases {v : Violation} (h : v.reported = fault) :
    (∃ p, fault = .problem p) ∨ ∃ n, v = .workers n ∧ Datum.isLongInteger n ∧ fault = .longKey := by
  unfold Violation.reported at h
  split at h
  · next unwritable =>
    cases v with
    | workers n => exact .inr ⟨n, rfl, unwritable, h.symm⟩
    | _ => cases unwritable
  · exact .inl ⟨_, h.symm⟩

/-- A failure names a problem, or is one of those that are listed. -/
theorem load_error_cases (h : (load user project env).2 = .error fault) :
    Escapes user project env fault ∨ ∃ p, fault = .problem p := by
  have layer {file : Option SettingsFile} (h : layerOf file = .error fault) :
      (∃ f, file = some f ∧ FileEscapes f fault) ∨ ∃ p, fault = .problem p := by
    cases file with
    | none => cases h
    | some f => exact (layerOf_error_cases h).imp_left fun escapes => ⟨f, rfl, escapes⟩
  rcases load_eq_error.1 h with h | ⟨lower, below, h | ⟨upper, above, h⟩⟩
  · exact (layer h).imp_left fun ⟨f, here, escapes⟩ => .user here escapes
  · exact (layer h).imp_left fun ⟨f, here, escapes⟩ => .project below here escapes
  · simp only [settingsOf_eq, andThen_eq_error, mapError_eq_error, mapError_eq_ok] at h
    rcases h with ⟨f, failed, rfl⟩ | ⟨made, hmade, ⟨p, -, rfl⟩ | ⟨changed, hchanged, v, refused, told⟩⟩
    · unfold ConversionFault.reported
      split
      · next beyond =>
        exact .inl (.overflow below above (beyondRange_of_ofEntries failed beyond) failed)
      · exact .inr ⟨_, rfl⟩
    · exact .inr ⟨p, rfl⟩
    · rcases violation_reported_cases told with problem | ⟨n, rfl, long, rfl⟩
      · exact .inr problem
      · exact .inl (.workers below above hmade hchanged refused long)

theorem Escapes.load (h : Escapes user project env fault) :
    (load user project env).2 = .error fault := by
  cases h with
  | user here escapes => exact load_eq_error.2 (.inl (here ▸ escapes.layerOf))
  | project accepted here escapes =>
    exact load_eq_error.2 (.inr ⟨_, accepted, .inl (here ▸ escapes.layerOf)⟩)
  | overflow below above beyond failed =>
    refine load_eq_error.2 (.inr ⟨_, below, .inr ⟨_, above, ?_⟩⟩)
    rw [settingsOf_eq, failed]
    exact congrArg Except.error (if_pos beyond.isOverflow)
  | workers below above made changed refused long =>
    refine load_eq_error.2 (.inr ⟨_, below, .inr ⟨_, above, ?_⟩⟩)
    have told : (Violation.workers _).reported = .longKey := if_pos long
    simp only [settingsOf_eq, made, changed, refused, mapError_ok, mapError_error, bind, Except.bind,
      told]

theorem Escapes.not_problem (h : Escapes user project env fault) (p : Problem) :
    fault ≠ .problem p := by
  cases h with
  | user here escapes => exact escapes.not_problem p
  | project accepted here escapes => exact escapes.not_problem p
  | overflow => exact nofun
  | workers => exact nofun

/-- Loading ends with settings in range, with a problem, or in one of the ways that are listed, each of
which is taken. A timeout that is not a number is one that the files give. -/
theorem load_outcome (user project : Option SettingsFile) (env : Environment) :
    ((∃ s, (load user project env).2 = .ok s ∧ s.InRange) ∨
      (∃ p, (load user project env).2 = .error (.problem p)) ∨
      ∃ fault, (load user project env).2 = .error fault ∧ Escapes user project env fault) ∧
    (∀ fault, Escapes user project env fault →
      (load user project env).2 = .error fault ∧ ∀ p, fault ≠ .problem p) ∧
    ∀ s, (load user project env).2 = .ok s → (s.timeout = .nan ↔
      ∃ lower upper v, layerOf user = .ok lower ∧ layerOf project = .ok upper ∧
        valueAt (layered lower upper) "github" "timeout" = some v ∧ floatOf v = .ok .nan) := by
  refine ⟨?_, fun fault h => ⟨h.load, h.not_problem⟩, ?_⟩
  · cases h : (load user project env).2 with
    | ok s =>
      obtain ⟨_, -, _, -, made⟩ := load_eq_ok.1 h
      obtain ⟨_, -, _, -, passes⟩ := settingsOf_eq_ok.1 made
      exact .inl ⟨s, rfl, passes.inRange⟩
    | error fault =>
      rcases load_error_cases h with escapes | ⟨p, rfl⟩
      · exact .inr (.inr ⟨fault, rfl, escapes⟩)
      · exact .inr (.inl ⟨p, rfl⟩)
  · intro s h
    obtain ⟨lower, below, upper, above, made⟩ := load_eq_ok.1 h
    obtain ⟨drafted, ofEntries, changed, varied, passes⟩ := settingsOf_eq_ok.1 made
    rw [withVariables_eq, map_eq_ok] at varied
    obtain ⟨_, -, rfl⟩ := varied
    have same : s.timeout = drafted.timeout := by rw [passes.drafted]
    rw [same, nan_iff_of_converted (timeout_of_ofEntries ofEntries)]
    constructor
    · rintro ⟨v, value, none_⟩
      exact ⟨lower, upper, v, below, above, value, none_⟩
    · rintro ⟨_, _, v, below', above', value, none_⟩
      cases below.symm.trans below'
      cases above.symm.trans above'
      exact ⟨v, value, none_⟩

end Loading

/-! ## Numbers that are not finite -/

def nanTimeout : SettingsFile := fileOf "repodoc.yaml" "github:\n  timeout: .nan\n"

def infiniteWorkers : SettingsFile := fileOf "repodoc.yaml" "ingest:\n  workers: .inf\n"

/-- The settings of nothing but a timeout that is not a number. -/
def nanTimeoutSettings : Settings where
  apiUrl := Remote.defaultApiUrl
  basePath := Remote.defaultBasePath
  timeout := .nan
  language := "java"
  workers := 4
  failOnErrors := false
  order := .insertion
  outputDirectory := "docs"
  level := .warning
  json := false

theorem load_nanTimeout : (load none (some nanTimeout) []).2 = .ok nanTimeoutSettings :=
  eq_ok_of_toOption (by decide +kernel)

theorem load_infiniteWorkers :
    (load none (some infiniteWorkers) []).2 = .error (.overflow .infinite) :=
  eq_error_of_faultOf? (by decide +kernel)

/-- A timeout is accepted that is not more than zero, and a number of workers ends the loading in a way
that names no problem. -/
theorem nan_timeout_is_accepted :
    (∃ s, (load none (some nanTimeout) []).2 = .ok s ∧ ¬ IsPositive s.timeout) ∧
      ∃ fault, (load none (some infiniteWorkers) []).2 = .error fault ∧
        ∀ p, fault ≠ .problem p :=
  ⟨⟨_, load_nanTimeout, id⟩, _, load_infiniteWorkers, nofun⟩

end CodeOutline.Config
