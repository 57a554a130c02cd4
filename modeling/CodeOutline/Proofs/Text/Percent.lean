import CodeOutline.Proofs.Text.Pieces
import CodeOutline.Proofs.Text.Utf8
import CodeOutline.Text.Blank
import CodeOutline.Text.Hexadecimal
import CodeOutline.Text.Percent

/-!
# Escapes read back

An escaped text says which octets it stands for: an escape stands for its octet, and every other
character for its own octets. So two texts are never escaped to the same one, whatever characters are
kept, as long as the percent sign is not among them (`escape_injective`), and the text comes back when
its escapes are read (`read?_escape`). An escaped text has unreserved characters, kept ones and escapes
(`isEscaped_escape`); where a slash is kept, its pieces are those of the text, escaped
(`pieces_escape`).
-/

namespace CodeOutline.Text

/-- Two texts with the same octets are the same. -/
theorem Utf8.encode_injective {cs cs' : List Char} (h : Utf8.encode cs = Utf8.encode cs') :
    cs = cs' := by
  have bytes : cs.utf8Encode = cs'.utf8Encode := congrArg List.toByteArray h
  have decoded := congrArg ByteArray.utf8Decode? bytes
  rw [List.utf8Decode?_utf8Encode, List.utf8Decode?_utf8Encode, Option.some.injEq] at decoded
  exact List.toArray_inj decoded

namespace Percent

/-- The octets that an escaped text stands for. -/
def octetsOf : List Char → Octets
  | '%' :: high :: low :: rest =>
    UInt8.ofNat ((hexValue? high).getD 0 * 16 + (hexValue? low).getD 0) :: octetsOf rest
  | c :: rest => String.utf8EncodeChar c ++ octetsOf rest
  | [] => []

theorem octetsOf_cons {c : Char} (h : c ≠ '%') (rest : List Char) :
    octetsOf (c :: rest) = String.utf8EncodeChar c ++ octetsOf rest := by
  rw [octetsOf.eq_def]
  split
  · next e => exact absurd (List.cons.inj e).1 h
  · next e =>
    obtain ⟨rfl, rfl⟩ := List.cons.inj e
    rfl
  · next e => cases e

theorem hexValue?_hexChar {n : Nat} (h : n < 16) : hexValue? (hexChar n) = some n := by
  have digits : ∀ k : Fin 16, hexValue? (hexChar k) = some k.val := by decide
  exact digits ⟨n, h⟩

theorem octetsOf_escapeOctet (b : UInt8) (rest : List Char) :
    octetsOf (escapeOctet b ++ rest) = b :: octetsOf rest := by
  have hb : b.toNat < 256 := b.toNat_lt
  have high : b.toNat / 16 < 16 := by omega
  have low : b.toNat % 16 < 16 := by omega
  have value : b.toNat / 16 * 16 + b.toNat % 16 = b.toNat := by omega
  change UInt8.ofNat ((hexValue? (hexChar (b.toNat / 16))).getD 0 * 16 +
    (hexValue? (hexChar (b.toNat % 16))).getD 0) :: octetsOf rest = _
  rw [hexValue?_hexChar high, hexValue?_hexChar low, Option.getD_some, Option.getD_some, value,
    UInt8.ofNat_toNat]

theorem octetsOf_escapeOctets (octets : Octets) (rest : List Char) :
    octetsOf (octets.flatMap escapeOctet ++ rest) = octets ++ octetsOf rest := by
  induction octets with
  | nil => rfl
  | cons b octets ih =>
    rw [List.flatMap_cons, List.append_assoc, octetsOf_escapeOctet, ih, List.cons_append]

/-- A character that stands for itself is no percent sign. -/
theorem ne_percent_of_kept {keep : List Char} (hkeep : '%' ∉ keep) {c : Char}
    (h : (isUnreserved c || keep.contains c) = true) : c ≠ '%' := by
  rintro rfl
  rw [show isUnreserved '%' = false by decide, Bool.false_or, List.contains_iff_mem] at h
  exact hkeep h

theorem octetsOf_escapeChar {keep : List Char} (hkeep : '%' ∉ keep) (c : Char) (rest : List Char) :
    octetsOf (escapeChar keep c ++ rest) = String.utf8EncodeChar c ++ octetsOf rest := by
  unfold escapeChar
  split
  · next kept => exact octetsOf_cons (ne_percent_of_kept hkeep kept) rest
  · exact octetsOf_escapeOctets ..

/-- An escaped text stands for the octets of the text. -/
theorem octetsOf_escape {keep : List Char} (hkeep : '%' ∉ keep) (s : String) :
    octetsOf (escape keep s).toList = Utf8.encode s.toList := by
  rw [escape, String.toList_ofList]
  induction s.toList with
  | nil => rfl
  | cons c rest ih =>
    rw [List.flatMap_cons, octetsOf_escapeChar hkeep, ih]
    rfl

theorem escape_injective {keep : List Char} (hkeep : '%' ∉ keep) {s s' : String}
    (h : escape keep s = escape keep s') : s = s' := by
  have octets := congrArg (octetsOf ·.toList) h
  simp only [octetsOf_escape hkeep] at octets
  exact String.toList_inj.1 (Utf8.encode_injective octets)

/-- The text that an escaped text stands for. -/
def read? (s : String) : Option String :=
  (Utf8.decode (octetsOf s.toList)).toOption.map String.ofList

theorem read?_escape {keep : List Char} (hkeep : '%' ∉ keep) (s : String) :
    read? (escape keep s) = some s := by
  rw [read?, octetsOf_escape hkeep, Utf8.decode_encode]
  simp [Except.toOption]

/-! ## The form of an escaped text -/

/-- Unreserved characters, characters to keep, and escapes of octets. -/
inductive IsEscaped (keep : List Char) : List Char → Prop where
  | nil : IsEscaped keep []
  | plain {c : Char} {rest : List Char} (kept : isUnreserved c = true ∨ c ∈ keep)
      (more : IsEscaped keep rest) : IsEscaped keep (c :: rest)
  | octet {high low : Char} {rest : List Char} (hhigh : isHexDigit high = true)
      (hlow : isHexDigit low = true) (more : IsEscaped keep rest) :
    IsEscaped keep ('%' :: high :: low :: rest)

theorem IsEscaped.append {keep cs ds : List Char} (h : IsEscaped keep cs) (h' : IsEscaped keep ds) :
    IsEscaped keep (cs ++ ds) := by
  induction h with
  | nil => exact h'
  | plain kept _ ih => exact .plain kept ih
  | octet hhigh hlow _ ih => exact .octet hhigh hlow ih

theorem isEscaped_of_kept {keep cs : List Char}
    (h : (cs.all fun c => isUnreserved c || keep.contains c) = true) : IsEscaped keep cs := by
  induction cs with
  | nil => exact .nil
  | cons c rest ih =>
    rw [List.all_cons, Bool.and_eq_true, Bool.or_eq_true, List.contains_iff_mem] at h
    exact .plain h.1 (ih h.2)

/-- More characters may be kept. -/
theorem IsEscaped.mono {keep keep' cs : List Char} (h : IsEscaped keep cs) (sub : keep ⊆ keep') :
    IsEscaped keep' cs := by
  induction h with
  | nil => exact .nil
  | plain kept _ ih => exact .plain (kept.imp_right (@sub _)) ih
  | octet hhigh hlow _ ih => exact .octet hhigh hlow ih

theorem isHexDigit_hexChar {n : Nat} (h : n < 16) : isHexDigit (hexChar n) = true := by
  rw [isHexDigit, hexValue?_hexChar h]
  rfl

theorem isEscaped_octets (keep : List Char) (octets : Octets) :
    IsEscaped keep (octets.flatMap escapeOctet) := by
  induction octets with
  | nil => exact .nil
  | cons b octets ih =>
    have hb : b.toNat < 256 := b.toNat_lt
    exact .octet (isHexDigit_hexChar (by omega)) (isHexDigit_hexChar (by omega)) ih

theorem isEscaped_escapeChar (keep : List Char) (c : Char) :
    IsEscaped keep (escapeChar keep c) := by
  unfold escapeChar
  split
  · next kept =>
    rw [Bool.or_eq_true, List.contains_iff_mem] at kept
    exact .plain kept .nil
  · exact isEscaped_octets ..

theorem isEscaped_escape (keep : List Char) (s : String) :
    IsEscaped keep (escape keep s).toList := by
  rw [escape, String.toList_ofList]
  induction s.toList with
  | nil => exact .nil
  | cons c rest ih =>
    rw [List.flatMap_cons]
    exact (isEscaped_escapeChar keep c).append ih

theorem isUnreserved_of_isHexDigit {c : Char} (h : isHexDigit c = true) : isUnreserved c = true := by
  have alphanum : c.isAlphanum = true := by
    change (decide (c.val ≥ 65 ∧ c.val ≤ 90) || (c.val ≥ 97 && c.val ≤ 122) ||
      (c.val ≥ 48 && c.val ≤ 57)) = true
    unfold isHexDigit hexValue? at h
    simp only [Bool.or_eq_true, Bool.and_eq_true, decide_eq_true_eq, ge_iff_le,
      UInt32.le_iff_toNat_le]
    split at h
    · next digit =>
      simp only [Char.isDigit, Bool.and_eq_true, decide_eq_true_eq, UInt32.le_iff_toNat_le] at digit
      exact .inr digit
    split at h
    · next lower =>
      simp only [Bool.and_eq_true, decide_eq_true_eq, Char.le_def, UInt32.le_iff_toNat_le] at lower
      simp at lower ⊢
      omega
    split at h
    · next upper =>
      simp only [Bool.and_eq_true, decide_eq_true_eq, Char.le_def, UInt32.le_iff_toNat_le] at upper
      simp at upper ⊢
      omega
    · cases h
  simp [isUnreserved, alphanum]

/-- What is no unreserved character, no character to keep and no percent sign does not occur. -/
theorem IsEscaped.notMem {keep cs : List Char} (h : IsEscaped keep cs) {mark : Char}
    (reserved : isUnreserved mark = false) (other : mark ∉ keep) (hmark : mark ≠ '%') :
    mark ∉ cs := by
  have notHex {c : Char} (hc : isHexDigit c = true) : mark ≠ c := by
    rintro rfl
    cases reserved.symm.trans (isUnreserved_of_isHexDigit hc)
  induction h with
  | nil => exact List.not_mem_nil
  | @plain c rest kept _ ih =>
    have hc : mark ≠ c := by
      rintro rfl
      exact kept.elim (fun h => nomatch reserved.symm.trans h) other
    exact List.not_mem_cons_of_ne_of_not_mem hc ih
  | octet hhigh hlow _ ih =>
    exact List.not_mem_cons_of_ne_of_not_mem hmark <|
      List.not_mem_cons_of_ne_of_not_mem (notHex hhigh) <|
        List.not_mem_cons_of_ne_of_not_mem (notHex hlow) ih

/-! ## Pieces -/

/-- A slash is kept where it is asked for, and other characters are escaped as before. -/
theorem escapeChar_slash {c : Char} (h : c ≠ '/') : escapeChar ['/'] c = escapeChar [] c := by
  simp [escapeChar, h]

theorem piecesFrom_escape (piece cs : List Char) :
    piecesFrom '/' (piece.reverse.flatMap (escapeChar [])).reverse (cs.flatMap (escapeChar ['/'])) =
      (piecesFrom '/' piece cs).map (List.flatMap (escapeChar [])) := by
  induction cs generalizing piece with
  | nil => simp [piecesFrom]
  | cons c rest ih =>
    rw [List.flatMap_cons]
    by_cases hc : c = '/'
    · subst hc
      have kept : escapeChar ['/'] '/' = ['/'] := by decide
      rw [kept, List.cons_append, piecesFrom, if_pos rfl, piecesFrom, if_pos rfl, List.map_cons,
        List.reverse_reverse, ← ih []]
      rfl
    · have plain : '/' ∉ escapeChar ['/'] c := by
        rw [escapeChar_slash hc]
        exact (isEscaped_escapeChar [] c).notMem (by decide) List.not_mem_nil (by decide)
      rw [piecesFrom_of_plain plain, piecesFrom, if_neg hc, ← ih, escapeChar_slash hc]
      simp

/-- The pieces of an escaped text are those of the text, escaped. -/
theorem pieces_escape (s : String) :
    pieces '/' (escape ['/'] s) = (pieces '/' s).map (escape []) := by
  have cut : piecesFrom '/' [] (s.toList.flatMap (escapeChar ['/'])) =
      (piecesFrom '/' [] s.toList).map (List.flatMap (escapeChar [])) :=
    piecesFrom_escape [] s.toList
  unfold pieces
  rw [escape, String.toList_ofList, cut]
  simp [escape, Function.comp_def]

/-! ## Blanks -/

theorem isBlank_hexChar {n : Nat} (h : n < 16) : isBlank (hexChar n) = false := by
  have digits : ∀ k : Fin 16, isBlank (hexChar k) = false := by decide
  exact digits ⟨n, h⟩

theorem isBlank_of_isUnreserved {c : Char} (h : isUnreserved c) : isBlank c = false := by
  have between : 0x2D ≤ c.toNat ∧ c.toNat ≤ 0x7E := by
    change (decide (c.val ≥ 65 ∧ c.val ≤ 90) || (c.val ≥ 97 && c.val ≤ 122) ||
      (c.val ≥ 48 && c.val ≤ 57) || c == '_' || c == '.' || c == '-' || c == '~') = true at h
    simp only [Bool.or_eq_true, Bool.and_eq_true, decide_eq_true_eq, beq_iff_eq, ge_iff_le,
      UInt32.le_iff_toNat_le, Char.toNat_val] at h
    rcases h with (((((h | h) | h) | rfl) | rfl) | rfl) | rfl
    · simp at h
      omega
    · simp at h
      omega
    · simp at h
      omega
    all_goals decide
  unfold isBlank
  simp only [Bool.or_eq_false_iff, Bool.and_eq_false_iff, decide_eq_false_iff_not, beq_eq_false_iff_ne]
  omega

/-- An escaped text has no blanks, as long as none are kept. -/
theorem isBlank_of_mem_escape {keep : List Char} (hkeep : ∀ c ∈ keep, isBlank c = false) {s : String}
    {c : Char} (h : c ∈ (escape keep s).toList) : isBlank c = false := by
  rw [escape, String.toList_ofList] at h
  obtain ⟨d, -, hc⟩ := List.mem_flatMap.1 h
  unfold escapeChar at hc
  split at hc
  · next kept =>
    obtain rfl := List.mem_singleton.1 hc
    rcases Bool.or_eq_true_iff.1 kept with unreserved | kept
    · exact isBlank_of_isUnreserved unreserved
    · exact hkeep c (List.contains_iff_mem.1 kept)
  · obtain ⟨b, -, hb⟩ := List.mem_flatMap.1 hc
    have bound : b.toNat < 256 := b.toNat_lt
    simp only [escapeOctet, List.mem_cons, List.not_mem_nil, or_false] at hb
    rcases hb with rfl | rfl | rfl
    · decide
    · exact isBlank_hexChar (by omega)
    · exact isBlank_hexChar (by omega)

end Percent

end CodeOutline.Text
