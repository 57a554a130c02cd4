import CodeOutline.Proofs.Data.Entries
import CodeOutline.Proofs.Data.Outcome
import CodeOutline.Proofs.Remote.Content
import CodeOutline.Proofs.Text.Base64
import CodeOutline.Proofs.Text.Utf8

/-!
# Contents in base64

A service may answer with an object that has a file's text in base64, cut into lines as it likes. The
text comes back whole, whatever blanks stand in it and however the object spells the encoding's name;
and nothing that has a foreign character is taken for base64 (`base64_contents`).
-/

namespace CodeOutline.Remote

open CodeOutline.Data CodeOutline.Text

/-- An answer that has a text in base64: JSON of a size that is read, an object with that text as its
content, which names the encoding in letters of either case. -/
inductive Encloses (encoded : String) : Answer → Prop where
  | intro {octets : Octets} {contentType : Option String} {fields : List (Datum × Datum)}
      {encoding : String} (size : octets.length ≤ bodyLimit)
      (json : Client.mediaType (contentType.getD "application/json") = "application/json")
      (read : Json.read octets = .ok (.map fields))
      (content : Datum.get? "content" fields = some (.text encoded))
      (named : Datum.get? "encoding" fields = some (.text encoding))
      (spelled : encoding.toList.map Char.toLower = "base64".toList) :
    Encloses encoded (.body octets contentType)

namespace Client

/-- The text of a file whose answer has it in base64 is what that is decoded to. -/
theorem fileText_of_encloses {c : Client} {net : Network} {owner name path encoded : String}
    (h : Encloses encoded (net.answer (c.contentAddress owner name path))) :
    (c.fileText net owner name path).result = (decodeBase64 encoded path).mapError .fetch := by
  rw [fileText_result]
  generalize net.answer (c.contentAddress owner name path) = answer at h
  cases h with
  | @intro octets contentType fields encoding size json read content named spelled =>
    have lower : String.ofList (encoding.toList.map Char.toLower) = "base64" := by
      rw [spelled, String.ofList_toList]
    unfold textIn received
    dsimp only
    rw [if_neg (Nat.not_lt.2 size)]
    dsimp only
    rw [if_pos json]
    simp only [textOfJson, read, content, named, Option.map_some, Option.getD_some, Datum.display,
      lower, if_true]

/-- Blanks in the text of octets do not matter. -/
theorem decodeBase64_interspersed {octets : Octets} {encoded path : String}
    (h : Interspersed (Base64.encode octets) encoded.toList) :
    decodeBase64 encoded path = .ok (Utf8.decodeMending octets) := by
  have compact : (withoutBlanks encoded).toList = Base64.encode octets := by
    rw [withoutBlanks, String.toList_ofList]
    exact h.filter fun _ hc => Base64.isBlank_of_mem_encode hc
  rw [decodeBase64, compact, Base64.decode_encode]

theorem decodeBase64_of_foreign {encoded path : String}
    (h : ∃ d ∈ encoded.toList, isBlank d = false ∧ Base64.IsForeign d) :
    decodeBase64 encoded path = .error (.notBase64 path) := by
  obtain ⟨d, mem, visible, foreign⟩ := h
  have kept : d ∈ (withoutBlanks encoded).toList := by
    rw [withoutBlanks, String.toList_ofList]
    exact List.mem_filter.2 ⟨mem, by simp [visible]⟩
  rw [decodeBase64, Base64.decode_eq_none_of_foreign ⟨d, kept, foreign⟩]

/-- A text in base64 is read back through any blanks in it, alone and from an answer that encloses it.
With a foreign character beside the blanks it is refused, in both ways. -/
theorem base64_contents (c : Client) (net : Network) (owner name path encoded : String) :
    (∀ text : String, Interspersed (Base64.encode (Utf8.encode text.toList)) encoded.toList →
      decodeBase64 encoded path = .ok text ∧
        (Encloses encoded (net.answer (c.contentAddress owner name path)) →
          (c.fileText net owner name path).result = .ok text)) ∧
      ((∃ d ∈ encoded.toList, isBlank d = false ∧ Base64.IsForeign d) →
        decodeBase64 encoded path = .error (.notBase64 path) ∧
          (Encloses encoded (net.answer (c.contentAddress owner name path)) →
            (c.fileText net owner name path).result = .error (.fetch (.notBase64 path)))) := by
  constructor
  · intro text spread
    have decoded : decodeBase64 encoded path = .ok text := by
      rw [decodeBase64_interspersed spread, Utf8.decodeMending_encode]
    refine ⟨decoded, fun enclosed => ?_⟩
    rw [fileText_of_encloses enclosed, decoded, mapError_ok]
  · intro foreign
    have refused : decodeBase64 encoded path = .error (.notBase64 path) :=
      decodeBase64_of_foreign foreign
    refine ⟨refused, fun enclosed => ?_⟩
    rw [fileText_of_encloses enclosed, refused, mapError_error]

/-! ## A wrapped text -/

/-- An object that has a text as its content, given as it is written there. -/
def enclosingObject (written : String) : Octets :=
  Utf8.encode ("\x7b\"encoding\": \"BaSe64\", \"content\": \"" ++ written ++ "\"\x7d").toList

/-- A service that answers every request with that object. -/
def enclosingNetwork (written : String) : Network where
  answer _ := .body (enclosingObject written) (some "Application/JSON; charset=utf-8")
  depth := 1

theorem encloses_enclosingObject {written encoded : String}
    (read : (Json.read (enclosingObject written)).toOption =
      some (.map [(.text "encoding", .text "BaSe64"), (.text "content", .text encoded)]))
    (size : (enclosingObject written).length ≤ bodyLimit) (url : String) :
    Encloses encoded ((enclosingNetwork written).answer url) := by
  have other : Datum.text "encoding" ≠ .text "content" := by decide
  refine .intro size (by decide) (eq_ok_of_toOption read) ?_ (Datum.get?_cons_self _ _) (by decide)
  rw [Datum.get?_cons_of_ne other]
  exact Datum.get?_cons_self _ _

/-- A text whose last group is filled up, with blanks inside the group and inside its padding, and one
with an asterisk in it. -/
theorem base64_contents_of_wrapped_text :
    (Interspersed (Base64.encode (Utf8.encode "Zoë".toList)) " Wm/\nDq\u2003w=\n =".toList ∧
        decodeBase64 " Wm/\nDq\u2003w=\n =" "p" = .ok "Zoë" ∧
        (Client.fileText ⟨none, "h", .int 30⟩ (enclosingNetwork " Wm/\\nDq\u2003w=\\n =") "o" "r"
          "p").result = .ok "Zoë") ∧
      decodeBase64 "Wm* Dqw==" "p" = .error (.notBase64 "p") ∧
      (Client.fileText ⟨none, "h", .int 30⟩ (enclosingNetwork "Wm* Dqw==") "o" "r" "p").result =
        .error (.fetch (.notBase64 "p")) := by
  have spread : Interspersed (Base64.encode (Utf8.encode "Zoë".toList))
      " Wm/\nDq\u2003w=\n =".toList := by
    have same : " Wm/\nDq\u2003w=\n =".toList.filter (!isBlank ·) =
        Base64.encode (Utf8.encode "Zoë".toList) := by decide +kernel
    exact same ▸ interspersed_filter _
  have foreign : ∃ d ∈ "Wm* Dqw==".toList, isBlank d = false ∧ Base64.IsForeign d :=
    ⟨'*', by decide, by decide, by unfold Base64.IsForeign Base64.IsDigit; decide⟩
  obtain ⟨decoded, fetched⟩ := (base64_contents ⟨none, "h", .int 30⟩
    (enclosingNetwork " Wm/\\nDq\u2003w=\\n =") "o" "r" "p" " Wm/\nDq\u2003w=\n =").1 "Zoë" spread
  obtain ⟨refused, unread⟩ := (base64_contents ⟨none, "h", .int 30⟩ (enclosingNetwork "Wm* Dqw==")
    "o" "r" "p" "Wm* Dqw==").2 foreign
  exact ⟨⟨spread, decoded, fetched (encloses_enclosingObject (by decide +kernel) (by decide +kernel) _)⟩,
    refused, unread (encloses_enclosingObject (by decide +kernel) (by decide +kernel) _)⟩

end Client

end CodeOutline.Remote
