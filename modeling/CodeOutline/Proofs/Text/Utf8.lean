import CodeOutline.Text.Utf8
import Mathlib.Data.List.TakeWhile

/-!
# Texts read back from their octets

A text in UTF-8 reads back as that text, strictly and with replacements alike (`decode_encode`,
`decodeMending_encode`). Both readers take a text apart with `piece`, so what is to be shown is that a
character's octets are one piece, whatever octets follow (`piece_encodeChar`). The tables of lead octets
are gone through once for each length of a character.
-/

namespace CodeOutline.Text.Utf8

/-! ## Lead octets -/

theorem toNat_ofNat {n : Nat} (h : n < 256) : (UInt8.ofNat n).toNat = n := by
  rw [UInt8.toNat_ofNat']
  exact Nat.mod_eq_of_lt h

/-- The lead octet of a character of two octets. -/
theorem lead?_two {v : Nat} (low : 0x80 ≤ v) (high : v ≤ 0x7FF) :
    lead? (UInt8.ofNat (v / 64 % 32 + 0xC0)) = some ⟨1, 0x80, 0xBF, v / 64⟩ := by
  have octet : (UInt8.ofNat (v / 64 % 32 + 0xC0)).toNat = v / 64 + 0xC0 := by
    rw [toNat_ofNat] <;> omega
  have range : 0xC2 ≤ v / 64 + 0xC0 ∧ v / 64 + 0xC0 ≤ 0xDF := by omega
  simp only [lead?, octet, range.1, range.2, decide_true, Bool.and_self, if_true, Nat.add_sub_cancel]

/-- The lead octet of a character of three octets, which allows the octet after it. -/
theorem lead?_three {v : Nat} (low : 0x800 ≤ v) (high : v ≤ 0xFFFF)
    (whole : v < 0xD800 ∨ 0xDFFF < v) :
    ∃ least greatest, lead? (UInt8.ofNat (v / 4096 % 16 + 0xE0)) =
        some ⟨2, least, greatest, v / 4096⟩ ∧
      least ≤ v / 64 % 64 + 0x80 ∧ v / 64 % 64 + 0x80 ≤ greatest := by
  have octet : (UInt8.ofNat (v / 4096 % 16 + 0xE0)).toNat = v / 4096 + 0xE0 := by
    rw [toNat_ofNat] <;> omega
  have notTwo : ¬(0xC2 ≤ v / 4096 + 0xE0 ∧ v / 4096 + 0xE0 ≤ 0xDF) := by omega
  simp only [lead?, octet, Bool.and_eq_true, decide_eq_true_eq, if_neg notTwo]
  by_cases first : v / 4096 = 0
  · exact ⟨0xA0, 0xBF, by simp [first], by omega, by omega⟩
  by_cases before : v / 4096 = 0xD
  · exact ⟨0x80, 0x9F, by simp [before], by omega, by omega⟩
  · have others : v / 4096 + 0xE0 ≠ 0xE0 ∧ v / 4096 + 0xE0 ≠ 0xED ∧
        0xE1 ≤ v / 4096 + 0xE0 ∧ v / 4096 + 0xE0 ≤ 0xEF := by omega
    refine ⟨0x80, 0xBF, ?_, by omega, by omega⟩
    rw [if_neg others.1, if_neg others.2.1, if_pos others.2.2, Nat.add_sub_cancel]

/-- The lead octet of a character of four octets, which allows the octet after it. -/
theorem lead?_four {v : Nat} (low : 0x10000 ≤ v) (high : v < 0x110000) :
    ∃ least greatest, lead? (UInt8.ofNat (v / 262144 % 8 + 0xF0)) =
        some ⟨3, least, greatest, v / 262144⟩ ∧
      least ≤ v / 4096 % 64 + 0x80 ∧ v / 4096 % 64 + 0x80 ≤ greatest := by
  have octet : (UInt8.ofNat (v / 262144 % 8 + 0xF0)).toNat = v / 262144 + 0xF0 := by
    rw [toNat_ofNat] <;> omega
  have fewer : ¬(0xC2 ≤ v / 262144 + 0xF0 ∧ v / 262144 + 0xF0 ≤ 0xDF) ∧
      v / 262144 + 0xF0 ≠ 0xE0 ∧ v / 262144 + 0xF0 ≠ 0xED ∧
      ¬(0xE1 ≤ v / 262144 + 0xF0 ∧ v / 262144 + 0xF0 ≤ 0xEF) := by omega
  simp only [lead?, octet, Bool.and_eq_true, decide_eq_true_eq, if_neg fewer.1, if_neg fewer.2.1,
    if_neg fewer.2.2.1, if_neg fewer.2.2.2]
  by_cases first : v / 262144 = 0
  · exact ⟨0x90, 0xBF, by simp [first], by omega, by omega⟩
  by_cases last : v / 262144 = 4
  · exact ⟨0x80, 0x8F, by simp [last], by omega, by omega⟩
  · have others : v / 262144 + 0xF0 ≠ 0xF0 ∧ 0xF1 ≤ v / 262144 + 0xF0 ∧
        v / 262144 + 0xF0 ≤ 0xF3 := by omega
    refine ⟨0x80, 0xBF, ?_, by omega, by omega⟩
    rw [if_neg others.1, if_pos others.2, Nat.add_sub_cancel]

/-! ## Characters -/

/-- A later octet of a character has six bits of it. -/
theorem within_tail (n : Nat) : within 0x80 0xBF (UInt8.ofNat (n % 64 + 0x80)) = true := by
  have octet : (UInt8.ofNat (n % 64 + 0x80)).toNat = n % 64 + 0x80 := toNat_ofNat (by omega)
  have bounds : 0x80 ≤ n % 64 + 0x80 ∧ n % 64 + 0x80 ≤ 0xBF := by omega
  simp only [within, octet, bounds.1, bounds.2, decide_true, Bool.and_self]

theorem toNat_tail_mod (n : Nat) : (UInt8.ofNat (n % 64 + 0x80)).toNat % 64 = n % 64 := by
  rw [toNat_ofNat (by omega)]
  omega

/-- A lead octet with all that it asks for is a character. -/
theorem piece_of_lead {first second : UInt8} {lead : Lead} {more : Octets}
    (found : lead? first = some lead) (high : 0x80 ≤ first.toNat)
    (hsecond : within lead.least lead.greatest second = true)
    (hmore : ∀ b ∈ more, within 0x80 0xBF b = true) (size : lead.tails = more.length + 1)
    (rest : Octets) :
    piece first (second :: more ++ rest) =
      .char (Char.ofNat ((second :: more).foldl (fun n b => n * 64 + b.toNat % 64) lead.bits))
        (more.length + 2) := by
  have above : ¬first < 0x80 := by
    rw [UInt8.lt_iff_toNat_lt]
    exact Nat.not_lt.2 high
  have tails : lead.following (second :: more ++ rest) = second :: more := by
    have all : (more ++ rest).take (lead.tails - 1) = more := by
      rw [size, Nat.add_sub_cancel, List.take_left]
    rw [List.cons_append, Lead.following, if_pos hsecond, all, List.takeWhile_eq_self_iff.2 hmore]
  simp only [piece, if_neg above, found, tails, size, List.length_cons, if_true]

/-- The octets of a character are one piece, whatever follows. -/
theorem piece_encodeChar (c : Char) (rest : Octets) :
    ∃ first more, String.utf8EncodeChar c = first :: more ∧
      piece first (more ++ rest) = .char c (more.length + 1) := by
  have valid := c.valid
  rw [UInt32.isValidChar, Nat.isValidChar] at valid
  have char : Char.ofNat c.val.toNat = c := Char.ofNat_toNat c
  unfold String.utf8EncodeChar
  dsimp only
  generalize c.val.toNat = v at valid char
  by_cases one : v ≤ 0x7F
  · rw [if_pos one]
    have octet : (UInt8.ofNat v).toNat = v := toNat_ofNat (by omega)
    have low : UInt8.ofNat v < 0x80 := by
      rw [UInt8.lt_iff_toNat_lt, octet]
      exact Nat.lt_succ_of_le one
    refine ⟨_, _, rfl, ?_⟩
    rw [piece, if_pos low, octet, char]
    rfl
  rw [if_neg one]
  by_cases two : v ≤ 0x7FF
  · rw [if_pos two]
    have lead := lead?_two (by omega) two
    have value : v / 64 * 64 + v % 64 = v := by omega
    refine ⟨_, _, rfl, (piece_of_lead lead (by rw [toNat_ofNat] <;> omega) (within_tail v)
      (List.forall_mem_nil _) rfl rest).trans ?_⟩
    simp only [List.foldl_cons, List.foldl_nil, toNat_tail_mod, value, char, List.length_cons,
      List.length_nil]
  rw [if_neg two]
  by_cases three : v ≤ 0xFFFF
  · rw [if_pos three]
    obtain ⟨least, greatest, lead, hleast, hgreatest⟩ :=
      lead?_three (by omega) three (by omega)
    have second : within least greatest (UInt8.ofNat (v / 64 % 64 + 0x80)) = true := by
      rw [within, toNat_ofNat (by omega), Bool.and_eq_true, decide_eq_true_eq, decide_eq_true_eq]
      exact ⟨hleast, hgreatest⟩
    have value : (v / 4096 * 64 + v / 64 % 64) * 64 + v % 64 = v := by omega
    refine ⟨_, _, rfl, (piece_of_lead lead (by rw [toNat_ofNat] <;> omega) second
      (List.forall_mem_singleton.2 (within_tail _)) rfl rest).trans ?_⟩
    simp only [List.foldl_cons, List.foldl_nil, toNat_tail_mod, value, char, List.length_cons,
      List.length_nil]
  · rw [if_neg three]
    obtain ⟨least, greatest, lead, hleast, hgreatest⟩ := lead?_four (v := v) (by omega) (by omega)
    have second : within least greatest (UInt8.ofNat (v / 4096 % 64 + 0x80)) = true := by
      rw [within, toNat_ofNat (by omega), Bool.and_eq_true, decide_eq_true_eq, decide_eq_true_eq]
      exact ⟨hleast, hgreatest⟩
    have value : ((v / 262144 * 64 + v / 4096 % 64) * 64 + v / 64 % 64) * 64 + v % 64 = v := by
      omega
    refine ⟨_, _, rfl, (piece_of_lead lead (by rw [toNat_ofNat] <;> omega) second
      (List.forall_mem_cons.2 ⟨within_tail _, List.forall_mem_singleton.2 (within_tail _)⟩)
      rfl rest).trans ?_⟩
    simp only [List.foldl_cons, List.foldl_nil, toNat_tail_mod, value, char, List.length_cons,
      List.length_nil]

/-! ## Texts -/

theorem encode_cons (c : Char) (cs : List Char) :
    encode (c :: cs) = String.utf8EncodeChar c ++ encode cs :=
  List.flatMap_cons

theorem decodeFrom_encode (done : List Char) (position : Nat) (cs : List Char) :
    decodeFrom done position (encode cs) = .ok (done.reverse ++ cs) := by
  induction cs generalizing done position with
  | nil => simp [encode, decodeFrom]
  | cons c cs ih =>
    obtain ⟨first, more, octets, whole⟩ := piece_encodeChar c (encode cs)
    rw [encode_cons, octets, List.cons_append, decodeFrom, whole]
    dsimp only
    rw [Nat.add_sub_cancel, List.drop_left, ih, List.reverse_cons, List.append_assoc]
    rfl

/-- A text is what its octets are read as. -/
theorem decode_encode (cs : List Char) : decode (encode cs) = .ok cs :=
  decodeFrom_encode [] 0 cs

theorem mendFrom_encode (done cs : List Char) :
    mendFrom done (encode cs) = done.reverse ++ cs := by
  induction cs generalizing done with
  | nil => simp [encode, mendFrom]
  | cons c cs ih =>
    obtain ⟨first, more, octets, whole⟩ := piece_encodeChar c (encode cs)
    rw [encode_cons, octets, List.cons_append, mendFrom, whole]
    dsimp only
    rw [Nat.add_sub_cancel, List.drop_left, ih, List.reverse_cons, List.append_assoc]
    rfl

/-- Nothing in the octets of a text is replaced. -/
theorem decodeMending_encode (s : String) : decodeMending (encode s.toList) = s := by
  rw [decodeMending, mendFrom_encode]
  simp

end CodeOutline.Text.Utf8
