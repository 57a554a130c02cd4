import CodeOutline.Proofs.Config.Layers

/-!
# Credentials in settings files

Which files are refused for a key that is named like a credential, and what the refusal names.

* `isCredentialName_iff`: the names, as words and what may stand around them.
* `findInEntries?_eq`: the search goes through the mappings that stand in mappings, each key before
  what stands under it, and stops at the first key that it has something to say about.
* `load_credentials`: loading refuses the first such key of the user's file, or else of the project's,
  and the refusal depends on the keys of the files alone.

The search does not look into lists: `listed_token_is_accepted`.
-/

namespace CodeOutline.Config

open CodeOutline.Data CodeOutline.Text

/-! ## Names -/

/-- The name has one of the words in it that are part of no other name; or it is a token or a secret, or
ends in one behind an underscore. -/
def NamesCredential (name : String) : Prop :=
  ∃ before word after, name.toList.map caseless = before ++ word ++ after ∧
    (word ∈ credentialParts.map String.toList ∨
      word ∈ credentialWords.map String.toList ∧ (before = [] ∨ before.getLast? = some '_') ∧
        (after = [] ∨ after = ['\n']))

theorem occursIn_iff {part cs : List Char} :
    occursIn part cs ↔ ∃ before after, cs = before ++ part ++ after := by
  have infix_iff : occursIn part cs ↔ part <:+: cs := by
    induction cs with
    | nil => simp [occursIn]
    | cons c rest ih => simp [occursIn, List.infix_cons_iff, ih]
  rw [infix_iff]
  constructor
  · rintro ⟨before, after, h⟩
    exact ⟨before, after, h.symm⟩
  · rintro ⟨before, after, h⟩
    exact ⟨before, after, h.symm⟩

/-- The characters without one line end behind them. -/
def stemOf (cs : List Char) : List Char :=
  if cs.getLast? = some '\n' then cs.dropLast else cs

theorem stemOf_eq_iff {cs stem : List Char} (h : stem.getLast? ≠ some '\n') :
    stemOf cs = stem ↔ ∃ after, cs = stem ++ after ∧ (after = [] ∨ after = ['\n']) := by
  constructor
  · rintro rfl
    unfold stemOf
    split
    · next ending =>
      have whole : cs.dropLast ++ ['\n'] = cs := by
        obtain ⟨front, rfl⟩ := List.getLast?_eq_some_iff.1 ending
        simp
      exact ⟨['\n'], whole.symm, .inr rfl⟩
    · exact ⟨[], (List.append_nil cs).symm, .inl rfl⟩
  · rintro ⟨after, rfl, rfl | rfl⟩
    · rw [stemOf, List.append_nil, if_neg h]
    · simp [stemOf]

/-- A word that is a name, or ends one behind an underscore. -/
theorem ends_word_iff {word cs : List Char} {last : Char} (ending : word.getLast? = some last)
    (visible : last ≠ '\n') :
    (stemOf cs = word ∨ ('_' :: word) <:+ stemOf cs) ↔
      ∃ before after, cs = before ++ word ++ after ∧ (before = [] ∨ before.getLast? = some '_') ∧
        (after = [] ∨ after = ['\n']) := by
  have ending' (before : List Char) : (before ++ word).getLast? ≠ some '\n' := by
    rw [List.getLast?_append, ending]
    simpa using visible
  constructor
  · rintro (same | ⟨front, behind⟩)
    · obtain ⟨after, whole, h⟩ := (stemOf_eq_iff (ending' [])).1 same
      exact ⟨[], after, whole, .inl rfl, h⟩
    · have stem : stemOf cs = (front ++ ['_']) ++ word := by
        rw [← behind, List.append_assoc]
        rfl
      obtain ⟨after, whole, h⟩ := (stemOf_eq_iff (ending' _)).1 stem
      exact ⟨_, after, whole, .inr List.getLast?_concat, h⟩
  · rintro ⟨before, after, whole, start, h⟩
    have stem := (stemOf_eq_iff (ending' before)).2 ⟨after, whole, h⟩
    rcases start with rfl | start
    · exact .inl stem
    · obtain ⟨front, rfl⟩ := List.getLast?_eq_some_iff.1 start
      exact .inr ⟨front, by rw [stem, List.append_assoc]; rfl⟩

theorem isCredentialName_iff (name : String) : isCredentialName name ↔ NamesCredential name := by
  have visible : ∀ word ∈ credentialWords, ∃ last, word.toList.getLast? = some last ∧ last ≠ '\n' := by
    intro word h
    rcases List.mem_cons.1 h with rfl | h
    · exact ⟨'n', rfl, by decide⟩
    · cases List.mem_singleton.1 h
      exact ⟨'t', rfl, by decide⟩
  have ends (word : String) (h : word ∈ credentialWords) (cs : List Char) :
      (stemOf cs = word.toList ∨ ('_' :: word.toList) <:+ stemOf cs) ↔ _ :=
    ends_word_iff (visible word h).choose_spec.1 (visible word h).choose_spec.2
  have search : isCredentialName name ↔
      (∃ part ∈ credentialParts, occursIn part.toList (name.toList.map caseless)) ∨
        ∃ word ∈ credentialWords, stemOf (name.toList.map caseless) = word.toList ∨
          ('_' :: word.toList) <:+ stemOf (name.toList.map caseless) := by
    simp [isCredentialName, stemOf]
  rw [search]
  constructor
  · rintro (⟨part, h, occurs⟩ | ⟨word, h, stands⟩)
    · obtain ⟨before, after, whole⟩ := occursIn_iff.1 occurs
      exact ⟨before, _, after, whole, .inl (List.mem_map_of_mem h)⟩
    · obtain ⟨before, after, whole, around⟩ := (ends word h _).1 stands
      exact ⟨before, _, after, whole, .inr ⟨List.mem_map_of_mem h, around⟩⟩
  · rintro ⟨before, word, after, whole, h | ⟨h, around⟩⟩
    · obtain ⟨part, hpart, rfl⟩ := List.mem_map.1 h
      exact .inl ⟨part, hpart, occursIn_iff.2 ⟨before, after, whole⟩⟩
    · obtain ⟨word, hword, rfl⟩ := List.mem_map.1 h
      exact .inr ⟨word, hword, (ends word hword _).2 ⟨before, after, whole, around⟩⟩

/-! ## The search -/

/-- What a search through mappings in mappings meets. -/
inductive Sight where
  /-- A key, below the keys that its mapping stands under. -/
  | entry (above : List Datum) (key : Datum)
  /-- A mapping that stands in itself. -/
  | enclosure

mutual

/-- What is met in a value that stands below keys: of each entry, the key and then what stands under
it. -/
def sightsIn (above : List Datum) : Datum → List Sight
  | .map entries => sightsOf above entries
  | .enclosing true => [.enclosure]
  | _ => []

def sightsOf (above : List Datum) : Entries → List Sight
  | [] => []
  | (key, value) :: rest =>
    .entry above key :: (sightsIn (above ++ [key]) value ++ sightsOf above rest)

end

/-- The path of the last of the keys below each other. -/
def pathOf (above : List Datum) : Option String := above.foldl pathBelow none

/-- What the search has to say about what it meets. -/
def Sight.finding? : Sight → Option Finding
  | .entry above key =>
    if key.hasLongInteger then some .longKey
    else if isCredentialName key.display then some (.credential (pathText (pathOf above) key))
    else none
  | .enclosure => some .bottomless

mutual

theorem findCredential?_eq (above : List Datum) : ∀ d : Datum,
    findCredential? (pathOf above) d = (sightsIn above d).findSome? Sight.finding?
  | .map entries => by
    simp only [findCredential?, sightsIn]
    exact findInEntries?_eq above entries
  | .enclosing true => by simp [findCredential?, sightsIn, Sight.finding?]
  | .enclosing false | .null | .bool _ | .int _ | .float _ | .text _ | .bytes _ | .date _ | .moment _
  | .list _ | .pair .. | .set _ => by simp [findCredential?, sightsIn]

/-- The search finds what there is to say about the first thing that it has something to say about. -/
theorem findInEntries?_eq (above : List Datum) : ∀ entries : Entries,
    findInEntries? (pathOf above) entries = (sightsOf above entries).findSome? Sight.finding?
  | [] => rfl
  | (key, value) :: rest => by
    have below : pathBelow (pathOf above) key = pathOf (above ++ [key]) := by
      simp [pathOf]
    have inside := findCredential?_eq (above ++ [key]) value
    have behind := findInEntries?_eq above rest
    rw [findInEntries?, below, inside, behind, sightsOf, List.findSome?_cons, List.findSome?_append]
    by_cases long : key.hasLongInteger
    · simp [Sight.finding?, long]
    · by_cases named : isCredentialName key.display <;> simp [Sight.finding?, long, named]

end

theorem findInEntries?_top (entries : Entries) :
    findInEntries? none entries = (sightsOf [] entries).findSome? Sight.finding? :=
  findInEntries?_eq [] entries

/-! ## Keys -/

/-- A key of a mapping that is reached by keys alone, from mapping to mapping. -/
inductive KeyAt : Entries → List Datum → Datum → Prop where
  | own {entries : Entries} {key value : Datum} (entry : (key, value) ∈ entries) :
      KeyAt entries [] key
  | nested {entries inner : Entries} {key last : Datum} {above : List Datum}
      (entry : (key, .map inner) ∈ entries) (inside : KeyAt inner above last) :
      KeyAt entries (key :: above) last

theorem keyAt_nil {above : List Datum} {key : Datum} : ¬ KeyAt [] above key := by
  rintro (⟨entry⟩ | ⟨entry, -⟩) <;> cases entry

theorem keyAt_cons {key value last : Datum} {rest : Entries} {above : List Datum} :
    KeyAt ((key, value) :: rest) above last ↔
      (above = [] ∧ last = key) ∨
      (∃ inner below, value = .map inner ∧ above = key :: below ∧ KeyAt inner below last) ∨
      KeyAt rest above last := by
  constructor
  · rintro (⟨entry⟩ | ⟨entry, inside⟩)
    · rcases List.mem_cons.1 entry with same | entry
      · cases same
        exact .inl ⟨rfl, rfl⟩
      · exact .inr (.inr (.own entry))
    · rcases List.mem_cons.1 entry with same | entry
      · cases same
        exact .inr (.inl ⟨_, _, rfl, rfl, inside⟩)
      · exact .inr (.inr (.nested entry inside))
  · rintro (⟨rfl, rfl⟩ | ⟨inner, below, rfl, rfl, inside⟩ | later)
    · exact .own List.mem_cons_self
    · exact .nested List.mem_cons_self inside
    · cases later with
      | own entry => exact .own (List.mem_cons_of_mem _ entry)
      | nested entry inside => exact .nested (List.mem_cons_of_mem _ entry) inside

mutual

theorem mem_sightsIn {above places : List Datum} {key : Datum} : ∀ d : Datum,
    .entry places key ∈ sightsIn above d ↔
      ∃ entries below, d = .map entries ∧ places = above ++ below ∧ KeyAt entries below key
  | .map entries => by
    rw [sightsIn, mem_sightsOf]
    simp
  | .enclosing true => by simp [sightsIn]
  | .enclosing false | .null | .bool _ | .int _ | .float _ | .text _ | .bytes _ | .date _ | .moment _
  | .list _ | .pair .. | .set _ => by simp [sightsIn]

/-- The keys that the search meets are those that are reached by keys alone. -/
theorem mem_sightsOf {above places : List Datum} {key : Datum} : ∀ entries : Entries,
    .entry places key ∈ sightsOf above entries ↔
      ∃ below, places = above ++ below ∧ KeyAt entries below key
  | [] => by simp [sightsOf, keyAt_nil]
  | (first, value) :: rest => by
    simp only [sightsOf, List.mem_cons, List.mem_append, mem_sightsIn value, mem_sightsOf rest,
      keyAt_cons, Sight.entry.injEq]
    constructor
    · rintro (⟨rfl, rfl⟩ | ⟨inner, below, rfl, rfl, inside⟩ | ⟨below, rfl, later⟩)
      · exact ⟨[], by simp, .inl ⟨rfl, rfl⟩⟩
      · exact ⟨first :: below, by simp, .inr (.inl ⟨inner, below, rfl, rfl, inside⟩)⟩
      · exact ⟨below, rfl, .inr (.inr later)⟩
    · rintro ⟨_, rfl, ⟨rfl, rfl⟩ | ⟨inner, below, rfl, rfl, inside⟩ | later⟩
      · exact .inl ⟨by simp, rfl⟩
      · exact .inr (.inl ⟨inner, below, rfl, by simp, inside⟩)
      · exact .inr (.inr ⟨_, rfl, later⟩)

end

/-- The key that is met. -/
def Sight.key? : Sight → Option Datum
  | .entry _ key => some key
  | .enclosure => none

/-- The keys that are reached by keys alone, in the order in which the search meets them. -/
def keysOf (entries : Entries) : List Datum := (sightsOf [] entries).filterMap Sight.key?

theorem mem_keysOf {entries : Entries} {key : Datum} :
    key ∈ keysOf entries ↔ ∃ above, KeyAt entries above key := by
  rw [keysOf, List.mem_filterMap]
  constructor
  · rintro ⟨s, met, same⟩
    cases s with
    | enclosure => cases same
    | entry above k =>
      cases same
      obtain ⟨below, -, reached⟩ := (mem_sightsOf entries).1 met
      exact ⟨below, reached⟩
  · rintro ⟨above, reached⟩
    exact ⟨.entry above key, (mem_sightsOf entries).2 ⟨above, rfl, reached⟩, rfl⟩

mutual

/-- Nothing in the value stands in itself. -/
def isFinite : Datum → Bool
  | .list items | .set items => allFinite items
  | .pair first second => isFinite first && isFinite second
  | .map entries => entriesFinite entries
  | .enclosing _ => false
  | _ => true

def allFinite : List Datum → Bool
  | [] => true
  | d :: rest => isFinite d && allFinite rest

def entriesFinite : Entries → Bool
  | [] => true
  | (key, value) :: rest => isFinite key && isFinite value && entriesFinite rest

end

mutual

theorem enclosure_notMem_sightsIn {above : List Datum} : ∀ d : Datum, isFinite d →
    .enclosure ∉ sightsIn above d
  | .map entries, finite => enclosure_notMem_sightsOf entries finite
  | .enclosing _, finite => nomatch finite
  | .null, _ | .bool _, _ | .int _, _ | .float _, _ | .text _, _ | .bytes _, _ | .date _, _
  | .moment _, _ | .list _, _ | .pair .., _ | .set _, _ => by simp [sightsIn]

theorem enclosure_notMem_sightsOf {above : List Datum} : ∀ entries : Entries, entriesFinite entries →
    .enclosure ∉ sightsOf above entries
  | [], _ => by simp [sightsOf]
  | (key, value) :: rest, finite => by
    obtain ⟨⟨-, inside⟩, behind⟩ : (isFinite key ∧ isFinite value) ∧ entriesFinite rest := by
      simpa [entriesFinite] using finite
    simp [sightsOf, enclosure_notMem_sightsIn value inside, enclosure_notMem_sightsOf rest behind]

end

/-! ## Values -/

mutual

/-- The mappings in a mapping with their keys, and nothing in place of other values. -/
def keysOnly : Datum → Datum
  | .map entries => .map (keysOnlyIn entries)
  | .enclosing true => .enclosing true
  | _ => .null

def keysOnlyIn : Entries → Entries
  | [] => []
  | (key, value) :: rest => (key, keysOnly value) :: keysOnlyIn rest

end

mutual

theorem sightsIn_keysOnly (above : List Datum) : ∀ d : Datum,
    sightsIn above (keysOnly d) = sightsIn above d
  | .map entries => by
    simp only [keysOnly, sightsIn]
    exact sightsOf_keysOnly above entries
  | .enclosing true => by simp [keysOnly]
  | .enclosing false | .null | .bool _ | .int _ | .float _ | .text _ | .bytes _ | .date _ | .moment _
  | .list _ | .pair .. | .set _ => by simp [keysOnly, sightsIn]

/-- The search meets the same in documents with the same keys. -/
theorem sightsOf_keysOnly (above : List Datum) : ∀ entries : Entries,
    sightsOf above (keysOnlyIn entries) = sightsOf above entries
  | [] => rfl
  | (key, value) :: rest => by
    rw [keysOnlyIn, sightsOf, sightsOf, sightsIn_keysOnly _ value, sightsOf_keysOnly _ rest]

end

/-! ## Refusals -/

/-- The search has nothing to say about it. -/
def Sight.IsQuiet : Sight → Prop
  | .entry _ key => key.hasLongInteger = false ∧ ¬ NamesCredential key.display
  | .enclosure => False

/-- The first thing that the search has something to say about is a key that is named like a
credential, and this is its path. -/
def Exposes (entries : Entries) (text : String) : Prop :=
  ∃ before above key after, sightsOf [] entries = before ++ .entry above key :: after ∧
    (∀ s ∈ before, s.IsQuiet) ∧ key.hasLongInteger = false ∧ NamesCredential key.display ∧
    text = pathText (pathOf above) key

theorem Sight.finding?_eq_none_iff {s : Sight} : s.finding? = none ↔ s.IsQuiet := by
  cases s with
  | enclosure => exact ⟨nofun, False.elim⟩
  | entry above key =>
    rw [Sight.IsQuiet, ← isCredentialName_iff, Sight.finding?]
    split
    · simp [*]
    · split <;> simp [*]

theorem Sight.finding?_eq_credential_iff {s : Sight} {text : String} :
    s.finding? = some (.credential text) ↔ ∃ above key, s = .entry above key ∧
      key.hasLongInteger = false ∧ NamesCredential key.display ∧
      text = pathText (pathOf above) key := by
  cases s with
  | enclosure => simp [Sight.finding?]
  | entry above key =>
    simp only [← isCredentialName_iff, Sight.finding?, Sight.entry.injEq]
    constructor
    · intro h
      split at h
      · cases h
      · next short =>
        split at h
        · next named =>
          cases h
          exact ⟨above, key, ⟨rfl, rfl⟩, Bool.eq_false_iff.2 short, named, rfl⟩
        · cases h
    · rintro ⟨_, _, ⟨rfl, rfl⟩, short, named, rfl⟩
      simp [short, named]

/-- The search stops at integers that are too long, at names and at what stands in itself. -/
theorem Sight.finding?_cases {s : Sight} {finding : Finding} (told : s.finding? = some finding) :
    (∃ above key, s = .entry above key ∧ key.hasLongInteger ∧ finding = .longKey) ∨
      (∃ text, finding = .credential text) ∨ s = .enclosure := by
  cases s with
  | enclosure => exact .inr (.inr rfl)
  | entry above key =>
    rw [Sight.finding?] at told
    split at told
    · next long =>
      cases told
      exact .inl ⟨above, key, rfl, long, rfl⟩
    · split at told
      · cases told
        exact .inr (.inl ⟨_, rfl⟩)
      · cases told

section Documents

variable {entries : Entries} {text : String}

theorem findInEntries?_eq_none_iff :
    findInEntries? none entries = none ↔ ∀ s ∈ sightsOf [] entries, s.IsQuiet := by
  simp only [findInEntries?_top, List.findSome?_eq_none_iff, Sight.finding?_eq_none_iff]

theorem findInEntries?_eq_credential_iff :
    findInEntries? none entries = some (.credential text) ↔ Exposes entries text := by
  rw [findInEntries?_top, List.findSome?_eq_some_iff]
  simp only [Sight.finding?_eq_credential_iff, Sight.finding?_eq_none_iff]
  constructor
  · rintro ⟨before, s, after, split, ⟨above, key, rfl, short, named, rfl⟩, quiet⟩
    exact ⟨before, above, key, after, split, quiet, short, named, rfl⟩
  · rintro ⟨before, above, key, after, split, quiet, short, named, rfl⟩
    exact ⟨before, _, after, split, ⟨above, key, rfl, short, named, rfl⟩, quiet⟩

theorem Exposes.keyAt (h : Exposes entries text) :
    ∃ above key, KeyAt entries above key ∧ NamesCredential key.display := by
  obtain ⟨before, above, key, after, split, -, -, named, -⟩ := h
  have met : .entry above key ∈ sightsOf [] entries := by simp [split]
  obtain ⟨below, -, reached⟩ := (mem_sightsOf entries).1 met
  exact ⟨below, key, reached, named⟩

theorem not_named_of_quiet {above : List Datum} {key : Datum}
    (quiet : ∀ s ∈ sightsOf [] entries, s.IsQuiet) (reached : KeyAt entries above key) :
    ¬ NamesCredential key.display :=
  (quiet _ ((mem_sightsOf entries).2 ⟨above, rfl, reached⟩)).2

/-- In a document of finite depth, the search has something to say about nothing but names. -/
theorem exposes_or_quiet (finite : entriesFinite entries)
    (short : ∀ above key, KeyAt entries above key → key.hasLongInteger = false) :
    (∃ text, Exposes entries text) ∨ ∀ s ∈ sightsOf [] entries, s.IsQuiet := by
  cases found : findInEntries? none entries with
  | none => exact .inr (findInEntries?_eq_none_iff.1 found)
  | some finding =>
    obtain ⟨s, met, told⟩ :=
      List.exists_of_findSome?_eq_some ((findInEntries?_top entries).symm.trans found)
    rcases Sight.finding?_cases told with ⟨above, key, rfl, long, -⟩ | ⟨text, rfl⟩ | rfl
    · obtain ⟨below, -, reached⟩ := (mem_sightsOf entries).1 met
      rw [short _ _ reached] at long
      cases long
    · exact .inl ⟨text, findInEntries?_eq_credential_iff.1 found⟩
    · exact absurd met (enclosure_notMem_sightsOf entries finite)

end Documents

variable {user project file : Option SettingsFile} {entries lower upper : Entries}
variable {path : Files.Path} {text : String}

theorem layerOf_eq_credential_iff (read : documentOf file = .ok entries) :
    layerOf file = .error (.problem (.credential path text)) ↔
      file.map (·.path) = some path ∧ Exposes entries text := by
  rw [layerOf_eq_error, ← findInEntries?_eq_credential_iff, read]
  constructor
  · rintro (⟨⟨⟩⟩ | ⟨f, document, finding, rfl, same, found, fault⟩)
    cases same
    cases finding <;> cases fault
    exact ⟨rfl, found⟩
  · rintro ⟨place, found⟩
    obtain ⟨f, rfl, rfl⟩ := Option.map_eq_some_iff.1 place
    exact .inr ⟨f, entries, _, rfl, rfl, found, rfl⟩

/-- Only a file that is there exposes something. -/
theorem Exposes.exists_path (exposed : Exposes entries text) (read : documentOf file = .ok entries) :
    ∃ path, file.map (·.path) = some path := by
  cases file with
  | some f => exact ⟨f.path, rfl⟩
  | none =>
    cases read
    obtain ⟨above, key, reached, -⟩ := exposed.keyAt
    exact absurd reached keyAt_nil

theorem layerOf_eq_ok_iff_quiet (read : documentOf file = .ok entries) {document : Entries} :
    layerOf file = .ok document ↔ document = entries ∧ ∀ s ∈ sightsOf [] entries, s.IsQuiet := by
  rw [layerOf_eq_ok, findInEntries?_eq_none_iff, read]
  constructor
  · rintro ⟨same, quiet⟩
    cases same
    exact ⟨rfl, quiet⟩
  · rintro ⟨rfl, quiet⟩
    exact ⟨rfl, quiet⟩

/-- The user's file is refused for what it exposes; the project's is, once the user's is accepted. -/
theorem load_eq_credential_iff (readUser : documentOf user = .ok lower)
    (readProject : documentOf project = .ok upper) (env : Environment) :
    (load user project env).2 = .error (.problem (.credential path text)) ↔
      (user.map (·.path) = some path ∧ Exposes lower text) ∨
      ((∀ s ∈ sightsOf [] lower, s.IsQuiet) ∧ project.map (·.path) = some path ∧
        Exposes upper text) := by
  have elsewhere (entries : Entries) :
      settingsOf entries env ≠ .error (.problem (.credential path text)) := by
    intro h
    rcases settingsOf_eq_error h with ⟨f, -, same⟩ | ⟨_, same⟩ | ⟨v, same⟩
    · unfold ConversionFault.reported at same
      split at same <;> cases same
    · cases same
    · unfold Violation.reported at same
      split at same <;> cases same
  rw [load_eq_error, layerOf_eq_credential_iff readUser]
  simp only [layerOf_eq_ok_iff_quiet readUser, layerOf_eq_credential_iff readProject, elsewhere,
    and_false, exists_false, or_false]
  simp

/-- On documents of finite depth without keys that are too long to be written, loading refuses a
credential exactly where one names a key that is reached by keys alone. -/
theorem exists_credential_iff (readUser : documentOf user = .ok lower)
    (readProject : documentOf project = .ok upper) (env : Environment)
    (finiteUser : entriesFinite lower) (finiteProject : entriesFinite upper)
    (short : ∀ above key, KeyAt lower above key ∨ KeyAt upper above key → key.hasLongInteger = false) :
    (∃ path text, (load user project env).2 = .error (.problem (.credential path text))) ↔
      ∃ above key, (KeyAt lower above key ∨ KeyAt upper above key) ∧ NamesCredential key.display := by
  simp only [load_eq_credential_iff readUser readProject]
  constructor
  · rintro ⟨path, text, ⟨-, exposed⟩ | ⟨-, -, exposed⟩⟩
    · obtain ⟨above, key, reached, named⟩ := exposed.keyAt
      exact ⟨above, key, .inl reached, named⟩
    · obtain ⟨above, key, reached, named⟩ := exposed.keyAt
      exact ⟨above, key, .inr reached, named⟩
  · rintro ⟨above, key, reached, named⟩
    rcases exposes_or_quiet finiteUser fun above key h => short above key (.inl h) with
      ⟨text, exposed⟩ | quiet
    · obtain ⟨path, place⟩ := exposed.exists_path readUser
      exact ⟨path, text, .inl ⟨place, exposed⟩⟩
    · replace reached : KeyAt upper above key :=
        reached.resolve_left fun here => not_named_of_quiet quiet here named
      rcases exposes_or_quiet finiteProject fun above key h => short above key (.inr h) with
        ⟨text, exposed⟩ | silent
      · obtain ⟨path, place⟩ := exposed.exists_path readProject
        exact ⟨path, text, .inr ⟨quiet, place, exposed⟩⟩
      · exact absurd named (not_named_of_quiet silent reached)

/-- Documents with the same keys hold the same sights. -/
theorem sightsOf_congr {entries' : Entries} (keys : keysOnlyIn entries' = keysOnlyIn entries) :
    sightsOf [] entries' = sightsOf [] entries := by
  rw [← sightsOf_keysOnly, keys, sightsOf_keysOnly]

/-- On documents of finite depth without keys that are too long to be written, loading refuses a
credential exactly where one names a key that is reached by keys alone. Of any documents, it is the
first such key that is refused, and the refusal is that of all files at the same places with the same
keys, whatever values they have and whatever the variables are. -/
theorem load_credentials (readUser : documentOf user = .ok lower)
    (readProject : documentOf project = .ok upper) (env : Environment) :
    (∀ path text, (load user project env).2 = .error (.problem (.credential path text)) ↔
      (user.map (·.path) = some path ∧ Exposes lower text) ∨
      ((∀ s ∈ sightsOf [] lower, s.IsQuiet) ∧ project.map (·.path) = some path ∧
        Exposes upper text)) ∧
    (entriesFinite lower → entriesFinite upper →
      (∀ above key, KeyAt lower above key ∨ KeyAt upper above key → key.hasLongInteger = false) →
      ((∃ path text, (load user project env).2 = .error (.problem (.credential path text))) ↔
        ∃ above key, (KeyAt lower above key ∨ KeyAt upper above key) ∧
          NamesCredential key.display)) ∧
    ∀ {user' project' : Option SettingsFile} {lower' upper' : Entries} (env' : Environment),
      documentOf user' = .ok lower' → documentOf project' = .ok upper' →
      user'.map (·.path) = user.map (·.path) → project'.map (·.path) = project.map (·.path) →
      keysOnlyIn lower' = keysOnlyIn lower → keysOnlyIn upper' = keysOnlyIn upper →
      ∀ path text, (load user' project' env').2 = .error (.problem (.credential path text)) ↔
        (load user project env).2 = .error (.problem (.credential path text)) := by
  refine ⟨fun _ _ => load_eq_credential_iff readUser readProject env,
    exists_credential_iff readUser readProject env, ?_⟩
  intro user' project' lower' upper' env' readUser' readProject' placeUser placeProject keysUser
    keysProject path text
  rw [load_eq_credential_iff readUser readProject, load_eq_credential_iff readUser' readProject',
    placeUser, placeProject]
  simp only [Exposes, sightsOf_congr keysUser, sightsOf_congr keysProject]

/-! ## Files with tokens -/

/-- A settings file with a text. -/
def fileOf (path text : String) : SettingsFile :=
  ⟨.ofString path, text.toList.flatMap String.utf8EncodeChar⟩

/-- A token in a mapping that stands in mappings. -/
def nestedToken : SettingsFile := fileOf "repodoc.yaml" "export:\n  extra:\n    token: abc\n"

def nestedTokenDocument : Entries :=
  [(.text "export", .map [(.text "extra", .map [(.text "token", .text "abc")])])]

theorem nestedToken_document : documentOf (some nestedToken) = .ok nestedTokenDocument :=
  eq_ok_of_toOption (by decide +kernel)

theorem namesCredential_token : NamesCredential "token" :=
  (isCredentialName_iff _).1 (by decide)

/-- The nested token is refused under its path. -/
theorem load_credentials_of_nestedToken :
    documentOf (some nestedToken) = .ok nestedTokenDocument ∧
    (∃ path text, (load none (some nestedToken) []).2 =
      .error (.problem (.credential path text))) ∧
    (load none (some nestedToken) [("REPODOC_WORKERS", "many")]).2 =
      .error (.problem (.credential nestedToken.path "export.extra.token")) := by
  have noFile : documentOf none = .ok [] := rfl
  obtain ⟨refused, named, same⟩ := load_credentials noFile nestedToken_document []
  have exposed : Exposes nestedTokenDocument "export.extra.token" :=
    findInEntries?_eq_credential_iff.1 (by decide +kernel)
  refine ⟨nestedToken_document, ?_, ?_⟩
  · refine (named rfl rfl ?_).2
      ⟨[.text "export", .text "extra"], .text "token", .inr ?_, namesCredential_token⟩
    · have short : ∀ key ∈ keysOf nestedTokenDocument, key.hasLongInteger = false := by decide +kernel
      rintro above key (reached | reached)
      · exact absurd reached keyAt_nil
      · exact short key (mem_keysOf.2 ⟨above, reached⟩)
    · exact .nested (List.mem_singleton_self _) (.nested (List.mem_singleton_self _)
        (.own (List.mem_singleton_self _)))
  · refine (same _ rfl nestedToken_document rfl rfl rfl rfl _ _).2 ?_
    exact (refused _ _).2 (.inr ⟨nofun, rfl, exposed⟩)

/-- A mapping somewhere in the value has the key, whatever it stands in. -/
inductive HoldsKey (key : Datum) : Datum → Prop where
  | own {entries : Entries} {value : Datum} (entry : (key, value) ∈ entries) :
      HoldsKey key (.map entries)
  | value {entries : Entries} {other value : Datum} (entry : (other, value) ∈ entries)
      (inside : HoldsKey key value) : HoldsKey key (.map entries)
  | item {items : List Datum} {item : Datum} (here : item ∈ items) (inside : HoldsKey key item) :
      HoldsKey key (.list items)
  | first {first second : Datum} (inside : HoldsKey key first) : HoldsKey key (.pair first second)
  | second {first second : Datum} (inside : HoldsKey key second) : HoldsKey key (.pair first second)

/-- A token in a mapping that stands in a list. -/
def listedToken : SettingsFile := fileOf "repodoc.yaml" "export:\n  extra:\n  - token: abc\n"

def listedTokenDocument : Entries :=
  [(.text "export", .map [(.text "extra", .list [.map [(.text "token", .text "abc")]])])]

theorem listedToken_document : documentOf (some listedToken) = .ok listedTokenDocument :=
  eq_ok_of_toOption (by decide +kernel)

/-- The search does not come to the listed token, and the file is accepted. -/
theorem listed_token_is_accepted :
    ∃ document key, documentOf (some listedToken) = .ok document ∧ entriesFinite document ∧
      HoldsKey key (.map document) ∧ NamesCredential key.display ∧
      ∃ s, (load none (some listedToken) []).2 = .ok s := by
  refine ⟨_, .text "token", listedToken_document, rfl, ?_, namesCredential_token, ?_⟩
  · refine .value (List.mem_singleton_self _) (.value (List.mem_singleton_self _) ?_)
    exact .item (List.mem_singleton_self _) (.own (List.mem_singleton_self _))
  · have accepted : (load none (some listedToken) []).2.isOk := by decide +kernel
    cases h : (load none (some listedToken) []).2 with
    | ok s => exact ⟨s, rfl⟩
    | error fault =>
      rw [h] at accepted
      cases accepted

end CodeOutline.Config
