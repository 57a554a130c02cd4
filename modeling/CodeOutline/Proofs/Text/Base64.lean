import CodeOutline.Text.Base64
import CodeOutline.Text.Blank
import Mathlib.Data.List.Basic

/-!
# Base64 read back

Octets read back from their text in base64 (`decode_encode`), also where blanks are put into that text
and left out again (`Interspersed`). A text with a character that is no letter of the alphabet and no
padding is refused, wherever that character stands (`decode_eq_none_of_foreign`).
-/

namespace CodeOutline.Text

/-! ## Blanks in a text -/

/-- The second text is the first one with blanks put in, anywhere and any number of them. -/
inductive Interspersed : List Char → List Char → Prop where
  | nil : Interspersed [] []
  | char {cs ds : List Char} (c : Char) (more : Interspersed cs ds) : Interspersed (c :: cs) (c :: ds)
  | blank {cs ds : List Char} {b : Char} (hb : isBlank b = true) (more : Interspersed cs ds) :
    Interspersed cs (b :: ds)

/-- Without blanks it is the first text again, if that has none of its own. -/
theorem Interspersed.filter {cs ds : List Char} (h : Interspersed cs ds)
    (visible : ∀ c ∈ cs, isBlank c = false) : ds.filter (!isBlank ·) = cs := by
  induction h with
  | nil => rfl
  | char c more ih =>
    obtain ⟨hc, hcs⟩ := List.forall_mem_cons.1 visible
    rw [List.filter_cons_of_pos (by simp [hc]), ih hcs]
  | blank hb more ih => rw [List.filter_cons_of_neg (by simp [hb]), ih visible]

/-- A text is that without its blanks, with them put in. -/
theorem interspersed_filter (ds : List Char) : Interspersed (ds.filter (!isBlank ·)) ds := by
  induction ds with
  | nil => exact .nil
  | cons d ds ih =>
    cases hd : isBlank d with
    | true =>
      rw [List.filter_cons_of_neg (by simp [hd])]
      exact .blank hd ih
    | false =>
      rw [List.filter_cons_of_pos (by simp [hd])]
      exact .char d ih

namespace Base64

/-! ## The alphabet -/

/-- One of the 64 characters that stand for six bits. -/
def IsDigit (c : Char) : Prop :=
  ('A' ≤ c ∧ c ≤ 'Z') ∨ ('a' ≤ c ∧ c ≤ 'z') ∨ ('0' ≤ c ∧ c ≤ '9') ∨ c = '+' ∨ c = '/'

/-- A character that has no place in a text in base64. -/
def IsForeign (c : Char) : Prop :=
  ¬IsDigit c ∧ c ≠ '='

theorem digitValue?_eq_none {c : Char} (h : ¬IsDigit c) : digitValue? c = none := by
  simp only [IsDigit, not_or] at h
  obtain ⟨upper, lower, digit, plus, slash⟩ := h
  simp only [digitValue?, Bool.and_eq_true, decide_eq_true_eq, if_neg upper, if_neg lower,
    if_neg digit, if_neg plus, if_neg slash]

theorem digitValue?_digitChar {n : Nat} (h : n < 64) : digitValue? (digitChar n) = some n := by
  have digits : ∀ k : Fin 64, digitValue? (digitChar k) = some k.val := by decide
  exact digits ⟨n, h⟩

theorem digitChar_ne_pad {n : Nat} (h : n < 64) : digitChar n ≠ '=' := by
  intro pad
  have value := digitValue?_digitChar h
  rw [pad, show digitValue? '=' = none by decide] at value
  cases value

theorem isBlank_digitChar {n : Nat} (h : n < 64) : isBlank (digitChar n) = false := by
  have digits : ∀ k : Fin 64, isBlank (digitChar k) = false := by decide
  exact digits ⟨n, h⟩

/-! ## Reading what was written -/

variable {done : Octets} {g : Group} {rest : List Char}

/-- A digit goes to its place in the group. -/
theorem decodeFrom_digitChar {n : Nat} (h : n < 64) (unpadded : g.padded = false) :
    decodeFrom done g (digitChar n :: rest) =
      match g.size with
      | 0 => decodeFrom done { size := 1, bits := n } rest
      | 1 => decodeFrom (UInt8.ofNat (g.bits * 4 + n / 16) :: done) { size := 2, bits := n % 16 } rest
      | 2 => decodeFrom (UInt8.ofNat (g.bits * 16 + n / 4) :: done) { size := 3, bits := n % 4 } rest
      | _ => decodeFrom (UInt8.ofNat (g.bits * 64 + n) :: done) {} rest := by
  rw [decodeFrom.eq_3 _ _ _ _ (digitChar_ne_pad h), digitValue?_digitChar h]
  exact if_neg (by simp [unpadded])

/-- The first two digits have the first octet. -/
theorem decodeFrom_octet {m n : Nat} {a : UInt8} (hm : m < 64) (hn : n < 64)
    (value : m * 4 + n / 16 = a.toNat) :
    decodeFrom done {} (digitChar m :: digitChar n :: rest) =
      decodeFrom (a :: done) { size := 2, bits := n % 16 } rest := by
  rw [decodeFrom_digitChar hm rfl]
  change decodeFrom done { size := 1, bits := m } (digitChar n :: rest) = _
  rw [decodeFrom_digitChar hn rfl]
  change decodeFrom (UInt8.ofNat (m * 4 + n / 16) :: done) _ rest = _
  rw [value, UInt8.ofNat_toNat]

/-- A third digit completes the second octet. -/
theorem decodeFrom_third {bits n : Nat} {b : UInt8} (hn : n < 64)
    (value : bits * 16 + n / 4 = b.toNat) :
    decodeFrom done { size := 2, bits } (digitChar n :: rest) =
      decodeFrom (b :: done) { size := 3, bits := n % 4 } rest := by
  rw [decodeFrom_digitChar hn rfl]
  change decodeFrom (UInt8.ofNat (bits * 16 + n / 4) :: done) _ rest = _
  rw [value, UInt8.ofNat_toNat]

/-- A fourth digit completes the third octet, and with it the group. -/
theorem decodeFrom_fourth {bits n : Nat} {c : UInt8} (hn : n < 64)
    (value : bits * 64 + n = c.toNat) :
    decodeFrom done { size := 3, bits } (digitChar n :: rest) = decodeFrom (c :: done) {} rest := by
  rw [decodeFrom_digitChar hn rfl]
  change decodeFrom (UInt8.ofNat (bits * 64 + n) :: done) {} rest = _
  rw [value, UInt8.ofNat_toNat]

/-- Octets read back from their text. -/
theorem decodeFrom_encode (done octets : Octets) :
    decodeFrom done {} (encode octets) = some (done.reverse ++ octets) := by
  fun_induction encode octets generalizing done with
  | case1 a b c rest n ih =>
    have ha := a.toNat_lt
    have hb := b.toNat_lt
    have hc := c.toNat_lt
    have first : n / 262144 * 4 + n / 4096 % 64 / 16 = a.toNat := by omega
    have second : n / 4096 % 64 % 16 * 16 + n / 64 % 64 / 4 = b.toNat := by omega
    have third : n / 64 % 64 % 4 * 64 + n % 64 = c.toNat := by omega
    rw [decodeFrom_octet (by omega) (by omega) first, decodeFrom_third (by omega) second,
      decodeFrom_fourth (by omega) third, ih]
    simp
  | case2 a b n =>
    have ha := a.toNat_lt
    have hb := b.toNat_lt
    have first : n / 4096 * 4 + n / 64 % 64 / 16 = a.toNat := by omega
    have second : n / 64 % 64 % 16 * 16 + n % 64 / 4 = b.toNat := by omega
    rw [decodeFrom_octet (by omega) (by omega) first, decodeFrom_third (by omega) second]
    simp [decodeFrom]
  | case3 a n =>
    have ha := a.toNat_lt
    have first : n / 64 * 4 + n % 64 / 16 = a.toNat := by omega
    rw [decodeFrom_octet (by omega) (by omega) first]
    simp [decodeFrom]
  | case4 => simp [decodeFrom]

theorem head?_encode (octets : Octets) : (encode octets).head? ≠ some '=' := by
  fun_cases encode octets with
  | case1 a b c rest n =>
    have ha := a.toNat_lt
    have hb := b.toNat_lt
    have hc := c.toNat_lt
    exact fun pad => digitChar_ne_pad (by omega) (Option.some.inj pad)
  | case2 a b n =>
    have ha := a.toNat_lt
    have hb := b.toNat_lt
    exact fun pad => digitChar_ne_pad (by omega) (Option.some.inj pad)
  | case3 a n =>
    have ha := a.toNat_lt
    exact fun pad => digitChar_ne_pad (by omega) (Option.some.inj pad)
  | case4 => simp

/-- Octets are what their text is read as. -/
theorem decode_encode (octets : Octets) : decode (encode octets) = some octets := by
  rw [decode, if_neg (head?_encode octets), decodeFrom_encode]
  rfl

theorem isBlank_of_mem_encode {octets : Octets} {c : Char} (h : c ∈ encode octets) :
    isBlank c = false := by
  have pad : isBlank '=' = false := by decide
  fun_induction encode octets with
  | case1 x y z rest n ih =>
    have hx := x.toNat_lt
    have hy := y.toNat_lt
    have hz := z.toNat_lt
    simp only [List.mem_cons] at h
    rcases h with rfl | rfl | rfl | rfl | h
    · exact isBlank_digitChar (by omega)
    · exact isBlank_digitChar (by omega)
    · exact isBlank_digitChar (by omega)
    · exact isBlank_digitChar (by omega)
    · exact ih h
  | case2 x y n =>
    have hx := x.toNat_lt
    have hy := y.toNat_lt
    simp only [List.mem_cons, List.not_mem_nil, or_false] at h
    rcases h with rfl | rfl | rfl | rfl
    · exact isBlank_digitChar (by omega)
    · exact isBlank_digitChar (by omega)
    · exact isBlank_digitChar (by omega)
    · exact pad
  | case3 x n =>
    have hx := x.toNat_lt
    simp only [List.mem_cons, List.not_mem_nil, or_false] at h
    rcases h with rfl | rfl | rfl | rfl
    · exact isBlank_digitChar (by omega)
    · exact isBlank_digitChar (by omega)
    · exact pad
    · exact pad
  | case4 => cases h

/-! ## Refusing what does not belong -/

/-- A foreign character is met, or reading has stopped before it. -/
theorem decodeFrom_eq_none_of_foreign {cs : List Char} (h : ∃ c ∈ cs, IsForeign c) :
    decodeFrom done g cs = none := by
  obtain ⟨c, mem, noDigit, noPad⟩ := h
  have later {d : Char} {n : Nat} {rest : List Char} (digit : digitValue? d = some n)
      (mem : c ∈ d :: rest) : c ∈ rest := by
    refine List.mem_of_ne_of_mem ?_ mem
    rintro rfl
    cases (digitValue?_eq_none noDigit).symm.trans digit
  fun_induction decodeFrom done g cs with
  | case1 => cases mem
  | case2 | case4 | case7 | case8 => rfl
  | case3 done g rest _ _ last =>
    rw [List.isEmpty_iff.1 last] at mem
    exact absurd (List.mem_singleton.1 mem) noPad
  | case5 _ _ _ _ _ ih => exact ih (List.mem_of_ne_of_mem noPad mem)
  | case6 _ _ _ _ ih => exact ih (List.mem_of_ne_of_mem noPad mem)
  | case9 _ _ _ _ _ _ digit _ _ ih => exact ih (later digit mem)
  | case10 _ _ _ _ _ _ digit _ _ ih => exact ih (later digit mem)
  | case11 _ _ _ _ _ _ digit _ _ ih => exact ih (later digit mem)
  | case12 _ _ _ _ _ _ digit _ _ _ _ ih => exact ih (later digit mem)

/-- A text with a foreign character stands for nothing. -/
theorem decode_eq_none_of_foreign {cs : List Char} (h : ∃ c ∈ cs, IsForeign c) :
    decode cs = none := by
  unfold decode
  split
  · rfl
  · exact decodeFrom_eq_none_of_foreign h

end Base64

end CodeOutline.Text
