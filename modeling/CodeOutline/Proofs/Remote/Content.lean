import CodeOutline.Proofs.Remote.Listing
import CodeOutline.Proofs.Text.Percent
import Mathlib.Data.List.TakeWhile

/-!
# Contents of remote files

The text of a file is read from one answer: the one at the address that its path is escaped to. No
other path has the same address (`contentAddress_injective`), so no other answer has a say in it.

Almost all answers are a text or a failure that callers are prepared for. `Misread` has the others:
JSON whose octets are in no encoding, JSON with an integer of too many digits, and an object whose
content is said to be in base64 and is no text.
-/

namespace CodeOutline.Remote

open CodeOutline.Data CodeOutline.Json CodeOutline.Text

/-! ## Addresses -/

/-- Blanks are taken off the start of an address only, where it ends with something else. -/
theorem trimChars_append {before after : List Char} (hbefore : ∃ c ∈ before, isBlank c = false)
    (hafter : ∀ c ∈ after, isBlank c = false) (hne : after ≠ []) :
    trimChars (before ++ after) = before.dropWhile isBlank ++ after := by
  have kept : before.dropWhile isBlank ≠ [] := by
    intro h
    obtain ⟨c, hc, hblank⟩ := hbefore
    cases hblank.symm.trans (List.dropWhile_eq_nil_iff.1 h c hc)
  have start : (before ++ after).dropWhile isBlank = before.dropWhile isBlank ++ after := by
    rw [List.dropWhile_append, if_neg (by simpa using kept)]
  obtain ⟨last, rest, hlast⟩ := List.exists_cons_of_ne_nil (List.reverse_ne_nil_iff.2 hne)
  have hblank : isBlank last = false :=
    hafter last (List.mem_reverse.1 (hlast ▸ List.mem_cons_self ..))
  have done : (last :: rest ++ (before.dropWhile isBlank).reverse).dropWhile isBlank =
      last :: rest ++ (before.dropWhile isBlank).reverse := by
    rw [List.cons_append, List.dropWhile_cons, hblank]
    rfl
  unfold trimChars
  rw [start, List.reverse_append, hlast, done, ← hlast, List.reverse_append, List.reverse_reverse,
    List.reverse_reverse]

namespace Client

variable {c : Client} {net : Network} {owner name : String}

/-- The address of a file's contents. -/
def contentUrl (c : Client) (owner name path : String) : String :=
  c.repositoryUrl owner name ["contents", path]

/-- The address that a file's text is requested from. -/
def contentAddress (c : Client) (owner name path : String) : String :=
  trim (c.contentUrl owner name path)

/-- The address of a file is that of its repository's files with the escaped path after it. -/
theorem toList_contentUrl (c : Client) (owner name : String) :
    ∃ before, '/' ∈ before ∧ ∀ path, path ≠ "" →
      (c.contentUrl owner name path).toList = before ++ (Percent.escape ['/'] path).toList := by
  refine ⟨c.apiUrl.toList ++ '/' :: ("repos/".toList ++ (Percent.escape [] owner).toList ++
    '/' :: (Percent.escape [] name).toList ++ "/contents/".toList), by simp, fun path hpath => ?_⟩
  have kept : Percent.escape ['/'] "contents" = "contents" := by decide
  have parts : ["contents", path].filter (!·.isEmpty) = ["contents", path] := by
    simp [hpath]
  unfold contentUrl repositoryUrl
  rw [parts]
  simp [joinWith, kept]

theorem escape_ne_nil {path : String} (h : path ≠ "") :
    (Percent.escape ['/'] path).toList ≠ [] := by
  intro e
  have same : Percent.escape ['/'] path = Percent.escape ['/'] "" := by
    rw [← String.toList_inj, e]
    rfl
  exact h (Percent.escape_injective (by decide) same)

/-- Two files never share an address. -/
theorem contentAddress_injective {path path' : String} (h : path ≠ "") (h' : path' ≠ "")
    (e : c.contentAddress owner name path = c.contentAddress owner name path') : path = path' := by
  obtain ⟨before, slash, address⟩ := toList_contentUrl c owner name
  have trimmed : ∀ p, p ≠ "" → (c.contentAddress owner name p).toList =
      before.dropWhile isBlank ++ (Percent.escape ['/'] p).toList := by
    intro p hp
    have kept : ∀ c ∈ ['/'], isBlank c = false := by
      intro c hc
      rw [List.mem_singleton.1 hc]
      decide
    have visible : ∀ x ∈ (Percent.escape ['/'] p).toList, isBlank x = false :=
      fun x hx => Percent.isBlank_of_mem_escape kept hx
    rw [contentAddress, trim, String.toList_ofList, address p hp]
    exact trimChars_append ⟨'/', slash, by decide⟩ visible (escape_ne_nil hp)
  have escaped := congrArg String.toList e
  rw [trimmed path h, trimmed path' h', List.append_cancel_left_eq, String.toList_inj] at escaped
  exact Percent.escape_injective (by decide) escaped

/-! ## Answers -/

/-- The text in an answer for a file. -/
def textIn (url path : String) (answer : Answer) : Except RemoteFault String :=
  match received url answer with
  | .error fault => .error (.fetch fault)
  | .ok (octets, media) =>
    if media = "application/json" then textOfJson octets path else .ok (Utf8.decodeMending octets)

/-- The text of a file is that in the answer at its address. -/
theorem fileText_result (c : Client) (net : Network) (owner name path : String) :
    (c.fileText net owner name path).result = textIn (c.contentUrl owner name path) path
      (net.answer (c.contentAddress owner name path)) := by
  unfold fileText textIn contentAddress contentUrl
  change (Call.andThen _ _).result = _
  unfold Call.andThen get
  dsimp only
  cases received (c.repositoryUrl owner name ["contents", path])
      (net.answer (trim (c.repositoryUrl owner name ["contents", path]))) with
  | error fault => rfl
  | ok got =>
    obtain ⟨octets, media⟩ := got
    dsimp only [Except.mapError]
    split <;> rfl

/-- The entries of an object say that its content is in base64. -/
def SaysBase64 (fields : List (Datum × Datum)) : Prop :=
  String.ofList ((((Datum.get? "encoding" fields).map Datum.display).getD "").toList.map
    Char.toLower) = "base64"

/-- How reading the JSON of a file ends, where that is neither a text nor a failure that callers are
prepared for. -/
inductive Misread (octets : Octets) : RemoteFault → Prop where
  | encoding {fault : EncodingFault} (read : Json.read octets = .error (.encoding fault)) :
      Misread octets (.encoding fault)
  | longInteger {digits : Nat} (read : Json.read octets = .error (.longInteger digits)) :
      Misread octets (.longInteger digits)
  | content {fields : List (Datum × Datum)} {content : Datum}
      (read : Json.read octets = .ok (.map fields))
      (there : Datum.get? "content" fields = some content) (encoded : SaysBase64 fields)
      (other : ∀ s, content ≠ .text s) : Misread octets (.shape .notAnObject)

/-- An answer that nobody is prepared for: a body of a size that is read, said to be JSON, or not said
to be anything, that is misread. -/
inductive Unforeseen : Answer → RemoteFault → Prop where
  | intro {octets : Octets} {contentType : Option String} {fault : RemoteFault}
      (size : octets.length ≤ bodyLimit)
      (json : mediaType (contentType.getD "application/json") = "application/json")
      (misread : Misread octets fault) : Unforeseen (.body octets contentType) fault

theorem textOfJson_cases (octets : Octets) (path : String) :
    (∃ text, textOfJson octets path = .ok text) ∨
      (∃ fault, textOfJson octets path = .error (.fetch fault)) ∨
      ∃ fault, textOfJson octets path = .error fault ∧ Misread octets fault := by
  unfold textOfJson
  cases read : Json.read octets with
  | error e =>
    cases e with
    | malformed reason place => exact .inl ⟨_, rfl⟩
    | encoding fault => exact .inr (.inr ⟨_, rfl, .encoding read⟩)
    | longInteger digits => exact .inr (.inr ⟨_, rfl, .longInteger read⟩)
  | ok d =>
    cases d with
    | map fields =>
      dsimp only
      cases there : Datum.get? "content" fields with
      | none => exact .inl ⟨_, rfl⟩
      | some content =>
        dsimp only
        split
        · next encoded =>
          cases content with
          | text s =>
            dsimp only
            cases decodeBase64 s path with
            | ok text => exact .inl ⟨_, rfl⟩
            | error fault => exact .inr (.inl ⟨_, rfl⟩)
          | _ => exact .inr (.inr ⟨_, rfl, .content read there encoded (fun _ => nofun)⟩)
        · exact .inl ⟨_, rfl⟩
    | _ => exact .inl ⟨_, rfl⟩

theorem textOfJson_of_misread {octets : Octets} {fault : RemoteFault} (h : Misread octets fault)
    (path : String) : textOfJson octets path = .error fault := by
  unfold textOfJson
  cases h with
  | encoding read => rw [read]
  | longInteger read => rw [read]
  | @content fields content read there encoded other =>
    rw [read]
    dsimp only
    rw [there]
    dsimp only
    rw [if_pos (show String.ofList _ = "base64" from encoded)]
    cases content with
    | text s => exact absurd rfl (other s)
    | _ => rfl

theorem Misread.not_fetch {octets : Octets} {fault : RemoteFault} (h : Misread octets fault)
    (f : FetchFault) : fault ≠ .fetch f := by
  cases h <;> nofun

theorem Unforeseen.not_fetch {answer : Answer} {fault : RemoteFault} (h : Unforeseen answer fault)
    (f : FetchFault) : fault ≠ .fetch f := by
  cases h with
  | intro _ _ misread => exact misread.not_fetch f

/-- An answer is a text, or a failure that callers are prepared for, or unforeseen. -/
theorem textIn_cases (url path : String) (answer : Answer) :
    (∃ text, textIn url path answer = .ok text) ∨
      (∃ fault, textIn url path answer = .error (.fetch fault)) ∨
      ∃ fault, textIn url path answer = .error fault ∧ Unforeseen answer fault := by
  unfold textIn
  cases answer with
  | body octets contentType =>
    unfold received
    dsimp only
    by_cases size : octets.length > bodyLimit
    · rw [if_pos size]
      exact .inr (.inl ⟨_, rfl⟩)
    · rw [if_neg size]
      dsimp only
      by_cases json : mediaType (contentType.getD "application/json") = "application/json"
      · rw [if_pos json]
        rcases textOfJson_cases octets path with text | fetch | ⟨fault, result, misread⟩
        · exact .inl text
        · exact .inr (.inl fetch)
        · exact .inr (.inr ⟨fault, result, .intro (Nat.not_lt.1 size) json misread⟩)
      · rw [if_neg json]
        exact .inl ⟨_, rfl⟩
  | _ => exact .inr (.inl ⟨_, rfl⟩)

/-- The unforeseen answers are those that end the call with a fault that nobody mends. -/
theorem unforeseen_iff (url path : String) {answer : Answer} {fault : RemoteFault} :
    Unforeseen answer fault ↔ textIn url path answer = .error fault ∧ ∀ f, fault ≠ .fetch f := by
  constructor
  · intro h
    refine ⟨?_, h.not_fetch⟩
    cases h with
    | intro size json misread =>
      unfold textIn received
      dsimp only
      rw [if_neg (Nat.not_lt.2 size)]
      dsimp only
      rw [if_pos json, textOfJson_of_misread misread]
  · rintro ⟨result, unprepared⟩
    rcases textIn_cases url path answer with ⟨_, text⟩ | ⟨f, fetch⟩ | ⟨other, result', unforeseen⟩
    · cases result.symm.trans text
    · cases result.symm.trans fetch
      exact absurd rfl (unprepared f)
    · cases result.symm.trans result'
      exact unforeseen

end Client

/-! ## Other answers -/

/-- The network, where one address is answered in another way. -/
def Network.answering (net : Network) (address : String) (answer : Answer) : Network :=
  { net with answer := fun other => if other = address then answer else net.answer other }

@[simp] theorem Network.answering_self (net : Network) (address : String) (answer : Answer) :
    (net.answering address answer).answer address = answer :=
  if_pos rfl

theorem Network.answering_other (net : Network) {address other : String} (answer : Answer)
    (h : other ≠ address) : (net.answering address answer).answer other = net.answer other :=
  if_neg h

/-- The network where a file is not found. -/
def Network.without (net : Network) (c : Client) (owner name path : String) : Network :=
  net.answering (c.contentAddress owner name path) (.status 404)

/-- Where one file is not found, the text of any other one is what it was. -/
theorem Client.fileText_without {c : Client} {net : Network} {owner name path other : String}
    (hpath : path ≠ "") (hother : other ≠ "") (h : other ≠ path) :
    (c.fileText (net.without c owner name path) owner name other).result =
      (c.fileText net owner name other).result := by
  have elsewhere : c.contentAddress owner name other ≠ c.contentAddress owner name path :=
    fun e => h (contentAddress_injective hother hpath e)
  rw [fileText_result, fileText_result, Network.without, Network.answering_other _ _ elsewhere]

theorem Client.fileText_without_self (c : Client) (net : Network) (owner name path : String) :
    (c.fileText (net.without c owner name path) owner name path).result =
      .error (.fetch (.status 404 (c.contentUrl owner name path))) := by
  rw [fileText_result, Network.without, Network.answering_self]
  rfl

end CodeOutline.Remote
