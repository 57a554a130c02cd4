import CodeOutline.Config.Basic
import CodeOutline.Config.Conversion
import CodeOutline.Config.Credential
import CodeOutline.Files.Path
import CodeOutline.Yaml.Value

/-!
# Loading settings

Settings are laid over each other: the defaults, the user's file, the project's file, and last the
environment's variables. Mappings that stand under the same key in both files are laid over each
other in turn; any other value of the project's file replaces that of the user's. Values are
converted and checked only once all layers are there, so a bad value that is replaced does no harm.
-/

namespace CodeOutline.Config

open CodeOutline.Data CodeOutline.Number CodeOutline.Text

/-- A settings file. -/
structure SettingsFile where
  path : Files.Path
  octets : Octets

/-- Why settings cannot be loaded, in a way that the user can mend. -/
inductive Problem where
  /-- A file cannot be read as YAML. What the reader says of the place is left out of the message. -/
  | notYaml (path : Files.Path)
  | notAMapping (path : Files.Path)
  /-- A file holds a key that is named like a credential. -/
  | credential (path : Files.Path) (key : String)
  | value (f : ConversionFault)
  /-- The variable for the number of workers holds no integer. -/
  | workersVariable (text : String)
  | violation (v : Violation)
  deriving Repr, DecidableEq

def Problem.message : Problem → String
  | notYaml path => s!"Config '{path.text}' is not valid YAML"
  | notAMapping path => s!"Config '{path.text}' must be a mapping at the top level."
  | credential path key =>
    s!"Config '{path.text}' contains a forbidden key '{key}'.\n" ++
      "  Tokens must be set via environment variables, not config files.\n" ++
      s!"  Remove '{key}' from {path.name} and use:\n" ++
      "    export GITHUB_TOKEN=<value>"
  | value f => s!"Invalid config value: {f.message}"
  | workersVariable text => s!"REPODOC_WORKERS must be an integer, got '{text}'"
  | violation v => v.message

/-- Why settings cannot be loaded. -/
inductive LoadFault where
  | problem (p : Problem)
  /-- A file is not encoded in UTF-8. -/
  | encoding (f : EncodingFault)
  /-- A scalar of a file is not what its kind asks for. -/
  | scalar (f : Yaml.Fault)
  /-- A number is beyond the range of what its setting asks for. -/
  | overflow (f : ConversionFault)
  /-- An integer is too long to be written: the name of a key, or a number of workers below one. -/
  | longKey
  /-- A mapping stands in itself. -/
  | bottomless
  deriving Repr, DecidableEq

def LoadFault.message : LoadFault → String
  | problem p => p.message
  | encoding f => f.message
  | scalar f => f.message
  | overflow f => f.message
  | longKey => longIntegerMessage none
  | bottomless => "maximum recursion depth exceeded"

/-- A key at the top of a file that names no section. -/
structure UnknownKey where
  key : Datum
  path : Files.Path

def UnknownKey.message (w : UnknownKey) : String :=
  s!"Unknown config key '{w.key.display}' in '{w.path.text}', ignored."

/-- The entries of a mapping. -/
abbrev Entries := List (Datum × Datum)

/-! ## Files -/

/-- The entries at the top of a file. What is empty or zero counts as no entries. -/
def SettingsFile.read (file : SettingsFile) : Except LoadFault Entries :=
  match Utf8.decode file.octets with
  | .error f => .error (.encoding f)
  | .ok cs =>
    match Yaml.read (unifiedBreaks cs) with
    | .error (.read .malformed) | .error .shape => .error (.problem (.notYaml file.path))
    | .error f => .error (.scalar f)
    | .ok (.map entries) => .ok entries
    | .ok d => if d.isTrue then .error (.problem (.notAMapping file.path)) else .ok []

/-- The names of the sections. -/
def sections : List String := ["github", "ingest", "export", "logging"]

/-- The keys that name no section. -/
def unknownKeys (path : Files.Path) (entries : Entries) : List UnknownKey :=
  (entries.filter fun e => !sections.any fun s => Datum.sameKey e.1 (.text s)).map fun e =>
    ⟨e.1, path⟩

/-- A fault of a file that holds a credential. -/
def checkCredentials (path : Files.Path) (entries : Entries) : Except LoadFault Unit :=
  match findInEntries? none entries with
  | none => .ok ()
  | some (.credential key) => .error (.problem (.credential path key))
  | some .longKey => .error .longKey
  | some .bottomless => .error .bottomless

/-! ## Layers -/

mutual

/-- A value laid over another under the same key. -/
def overlayValue (lower : Option Datum) : Datum → Datum
  | .map upper =>
    match lower with
    | some (.map entries) => .map (overlay entries upper)
    | _ => .map upper
  | d => d

/-- Entries laid over others. Keys keep the places and the spelling of the lower layer. -/
def overlay (lower : Entries) : Entries → Entries
  | [] => lower
  | (key, value) :: rest =>
    overlay (Datum.put key (overlayValue (Datum.find? key lower) value) lower) rest

end

/-- The value of a setting, or what it is without one. -/
def setting {α : Type} (entries : Entries) (name : String) (convert : Datum → Except ConversionFault α)
    (other : α) : Except ConversionFault α :=
  match Datum.get? name entries with
  | none => .ok other
  | some d => convert d

/-- Changes settings by a section, if there is one. -/
def withSection (entries : Entries) (name : String) (d : Draft)
    (change : Entries → Draft → Except ConversionFault Draft) : Except ConversionFault Draft := do
  match Datum.get? name entries with
  | none => return d
  | some v => change (← entriesOf v) d

/-- The settings that a document makes of the defaults. -/
def Draft.ofEntries (entries : Entries) : Except ConversionFault Draft := do
  let d ← withSection entries "github" {} fun s d => do
    let apiUrl ← setting s "api_url" textOf d.apiUrl
    let basePath ← setting s "base_path" textOf d.basePath
    let timeout ← setting s "timeout" floatOf d.timeout
    return { d with apiUrl, basePath, timeout }
  let d ← withSection entries "ingest" d fun s d => do
    let language ← setting s "language" textOf d.language
    let workers ← setting s "workers" intOf d.workers
    let failOnErrors ← setting s "fail_on_errors" (.ok ·.isTrue) d.failOnErrors
    return { d with language, workers, failOnErrors }
  let d ← withSection entries "export" d fun s d => do
    let order ← setting s "order" textOf d.order
    let outputDirectory ← setting s "output_dir" textOf d.outputDirectory
    return { d with order, outputDirectory }
  withSection entries "logging" d fun s d => do
    let level ← setting s "level" textOf d.level
    let json ← setting s "json" (.ok ·.isTrue) d.json
    return { d with level, json }

/-! ## Variables -/

/-- The environment's variables. -/
abbrev Environment := List (String × String)

/-- The value of a variable; an empty one counts as none. -/
def Environment.get? (env : Environment) (name : String) : Option String :=
  (env.lookup name).filter (!·.isEmpty)

/-- The settings changed by variables. -/
def Draft.withVariables (d : Draft) (env : Environment) : Except Problem Draft := do
  let workers ← match Environment.get? env "REPODOC_WORKERS" with
    | none => pure d.workers
    | some text =>
      match readInt text.toList with
      | .ok n => pure n
      | .error _ => throw (.workersVariable text)
  return { d with
    apiUrl := (Environment.get? env "REPODOC_API_URL").getD d.apiUrl
    workers
    level := (Environment.get? env "REPODOC_LOG_LEVEL").getD d.level
    order := (Environment.get? env "REPODOC_EXPORT_ORDER").getD d.order }

/-! ## Loading -/

/-- The settings of a document and variables. -/
def settingsOf (entries : Entries) (env : Environment) : Except LoadFault Settings :=
  match Draft.ofEntries entries with
  | .error f => .error (if f.isOverflow then .overflow f else .problem (.value f))
  | .ok d =>
    match d.withVariables env with
    | .error p => .error (.problem p)
    | .ok d =>
      match d.check with
      | .error v => .error (if v.isUnwritable then .longKey else .problem (.violation v))
      | .ok s => .ok s

/-- The warnings so far, with the layers so far or what stopped them. -/
abbrev Layers := List UnknownKey × Except LoadFault Entries

/-- One more file over the layers so far. -/
def addLayer (layers : Layers) (file : Option SettingsFile) : Layers :=
  match layers.2, file with
  | .ok lower, some file =>
    match (do let upper ← file.read; checkCredentials file.path upper; pure upper) with
    | .ok upper => (layers.1 ++ unknownKeys file.path upper, .ok (overlay lower upper))
    | .error f => (layers.1, .error f)
  | _, _ => layers

/-- The settings of the user's file, the project's file and the variables, beside the warnings about
unknown keys in the files. -/
def load (user project : Option SettingsFile) (env : Environment) :
    List UnknownKey × Except LoadFault Settings :=
  let (warnings, layers) := addLayer (addLayer ([], .ok []) user) project
  (warnings, do settingsOf (← layers) env)

end CodeOutline.Config
