import CodeOutline.Json.Printer
import CodeOutline.Json.Reader

/-!
# Lists of texts in JSON

A list of texts that is written as JSON and read again is the same list, whatever characters its texts
hold: those of ASCII are written as they are, with a few short escapes, all others by one or two units of
UTF-16. The reading goes the way of the reader: what was written for a character stands for that
character, what was written for a text is one token, and the tokens of the list make the list.
-/

namespace CodeOutline.Json

open CodeOutline.Data CodeOutline.Text

/-! ## Characters -/

theorem unicodeEscape?_hexDigits {n : Nat} (hn : n < 0x10000) {rest : List Char} (h : rest ≠ []) :
    unicodeEscape? (hexDigits 4 n ++ rest) = some n := by
  obtain ⟨c, rest, rfl⟩ := List.exists_cons_of_ne_nil h
  have value :
      ((n / 16 / 16 / 16 % 16 * 16 + n / 16 / 16 % 16) * 16 + n / 16 % 16) * 16 + n % 16 = n := by
    omega
  simp [hexDigits, unicodeEscape?, hexValue?_hexDigit, value]

theorem drop_hexDigits (n : Nat) (rest : List Char) : (hexDigits 4 n ++ rest).drop 4 = rest :=
  List.drop_left' (length_hexDigits 4 n)

/-- No character is half of a surrogate pair. -/
theorem not_surrogate (c : Char) : (isHighSurrogate c.toNat || isLowSurrogate c.toNat) = false := by
  have valid := c.valid
  simp only [isHighSurrogate, isLowSurrogate, Bool.or_eq_false_iff, Bool.and_eq_false_iff,
    decide_eq_false_iff_not]
  simp only [UInt32.isValidChar, Nat.isValidChar, Char.toNat] at valid ⊢
  omega

theorem charOf_toNat (c : Char) : charOf c.toNat = c := by
  rw [charOf, not_surrogate, if_neg Bool.false_ne_true, Char.ofNat_toNat]

/-- A character outside the first plane is two halves. -/
theorem joinSurrogates_of_halves {c : Char} (h : 0x10000 ≤ c.toNat) :
    joinSurrogates (0xD800 + (c.toNat - 0x10000) / 0x400)
      (0xDC00 + (c.toNat - 0x10000) % 0x400) = c := by
  have value : 0x10000 + (0xD800 + (c.toNat - 0x10000) / 0x400 - 0xD800) * 0x400 +
      (0xDC00 + (c.toNat - 0x10000) % 0x400 - 0xDC00) = c.toNat := by
    omega
  rw [joinSurrogates, value, Char.ofNat_toNat]

theorem toNat_lt (c : Char) : c.toNat < 0x110000 := by
  have valid := c.valid
  simp only [UInt32.isValidChar, Nat.isValidChar] at valid
  simp only [Char.toNat]
  omega

variable {start position : Nat} {done rest : List Char}

/-- An escape of one unit. -/
theorem stringFrom_unitEscape {n : Nat} (hn : n < 0x10000) (some : rest ≠ [])
    (single : isHighSurrogate n = false) :
    stringFrom start done position (unitEscape n ++ rest) =
      stringFrom start (charOf n :: done) (position + (unitEscape n).length) rest := by
  have alone : surrogatePair? n rest = none := by
    unfold surrogatePair?
    split
    · split
      · rw [single, Bool.false_and, if_neg Bool.false_ne_true]
      · rfl
    · rfl
  rw [unitEscape, List.cons_append, List.cons_append, stringFrom, unicodeEscape?_hexDigits hn some]
  simp only [drop_hexDigits, alone, List.length_cons, length_hexDigits]

/-- An escape of two units. -/
theorem stringFrom_pairEscape {high low : Nat} (some : rest ≠ []) (hhigh : isHighSurrogate high)
    (hlow : isLowSurrogate low) :
    stringFrom start done position (unitEscape high ++ unitEscape low ++ rest) =
      stringFrom start (joinSurrogates high low :: done)
        (position + (unitEscape high ++ unitEscape low).length) rest := by
  have bounds : high < 0x10000 ∧ low < 0x10000 := by
    simp only [isHighSurrogate, isLowSurrogate, Bool.and_eq_true, decide_eq_true_eq] at hhigh hlow
    omega
  have both : (hexDigits 4 high ++ (unitEscape low ++ rest)).drop 10 = rest := by
    rw [show 10 = 4 + 6 from rfl, ← List.drop_drop, drop_hexDigits]
    exact List.drop_left' (by simp [unitEscape, length_hexDigits])
  have pair : surrogatePair? high (unitEscape low ++ rest) = .some (joinSurrogates high low) := by
    rw [unitEscape, List.cons_append, List.cons_append, surrogatePair?,
      unicodeEscape?_hexDigits bounds.2 some]
    simp only [hhigh, hlow, Bool.and_self, if_true]
  rw [List.append_assoc, unitEscape, List.cons_append, List.cons_append, stringFrom,
    unicodeEscape?_hexDigits bounds.1 (by simp [unitEscape])]
  simp only [drop_hexDigits, pair, both]
  simp [unitEscape, length_hexDigits]

/-- A short escape. -/
theorem stringFrom_escaped {c e : Char} (h : escaped? c = some e) :
    stringFrom start done position ('\\' :: c :: rest) =
      stringFrom start (e :: done) (position + 2) rest := by
  have unit : c ≠ 'u' := by
    rintro rfl
    cases h
  rw [stringFrom]
  · simp only [h]
  · exact fun e => unit e

/-- A character that stands for itself. -/
theorem stringFrom_plain {c : Char} (quote : c ≠ '"') (backslash : c ≠ '\\')
    (printable : 0x20 ≤ c.toNat) :
    stringFrom start done position (c :: rest) = stringFrom start (c :: done) (position + 1) rest := by
  rw [stringFrom]
  · rw [if_neg (by omega)]
  all_goals simp [quote, backslash]

/-- What is written for a character: a short escape, itself, or one or two units. -/
theorem writtenChar_cases (c : Char) :
    (∃ e, escaped? e = some c ∧ writtenChar c = ['\\', e]) ∨
      (c ≠ '"' ∧ c ≠ '\\' ∧ 0x20 ≤ c.toNat ∧ writtenChar c = [c]) ∨
      (c.toNat < 0x10000 ∧ writtenChar c = unitEscape c.toNat) ∨
      (0x10000 ≤ c.toNat ∧ writtenChar c = unitEscape (0xD800 + (c.toNat - 0x10000) / 0x400) ++
        unitEscape (0xDC00 + (c.toNat - 0x10000) % 0x400)) := by
  by_cases short : c ∈ ['"', '\\', '\n', '\r', '\t', '\x08', '\x0c']
  · simp only [List.mem_cons, List.not_mem_nil, or_false] at short
    rcases short with rfl | rfl | rfl | rfl | rfl | rfl | rfl <;> exact .inl ⟨_, rfl, rfl⟩
  · simp only [List.mem_cons, List.not_mem_nil, or_false, not_or] at short
    obtain ⟨quote, backslash, line, carriage, tab, back, form⟩ := short
    simp only [writtenChar, quote, backslash, line, carriage, tab, back, form, decide_false, Bool.or_self,
      Bool.false_eq_true, if_false]
    split
    · next plain =>
      simp only [Bool.and_eq_true, decide_eq_true_eq] at plain
      exact .inr (.inl ⟨quote, backslash, plain.1, rfl⟩)
    · split
      · next unit => exact .inr (.inr (.inl ⟨unit, rfl⟩))
      · next pair => exact .inr (.inr (.inr ⟨Nat.le_of_not_lt pair, rfl⟩))

/-- What is written for a character stands for it. -/
theorem stringFrom_writtenChar (some : rest ≠ []) (c : Char) :
    stringFrom start done position (writtenChar c ++ rest) =
      stringFrom start (c :: done) (position + (writtenChar c).length) rest := by
  obtain ⟨e, short, written⟩ | ⟨quote, backslash, printable, written⟩ | ⟨unit, written⟩ |
    ⟨pair, written⟩ := writtenChar_cases c
  · rw [written]
    exact stringFrom_escaped short
  · rw [written]
    exact stringFrom_plain quote backslash printable
  · have single := not_surrogate c
    rw [written, stringFrom_unitEscape unit some (Bool.or_eq_false_iff.1 single).1, charOf_toNat]
  · have bound := toNat_lt c
    have high : isHighSurrogate (0xD800 + (c.toNat - 0x10000) / 0x400) := by
      simp only [isHighSurrogate, Bool.and_eq_true, decide_eq_true_eq]
      omega
    have low : isLowSurrogate (0xDC00 + (c.toNat - 0x10000) % 0x400) := by
      simp only [isLowSurrogate, Bool.and_eq_true, decide_eq_true_eq]
      omega
    rw [written, stringFrom_pairEscape some high low, joinSurrogates_of_halves pair]

/-- What is written for the characters of a text stands for them, up to the closing quote. -/
theorem stringFrom_written (cs : List Char) :
    stringFrom start done position (cs.flatMap writtenChar ++ '"' :: rest) =
      .ok (done.reverse ++ cs, position + (cs.flatMap writtenChar).length + 1) := by
  induction cs generalizing done position with
  | nil => simp [stringFrom]
  | cons c cs ih =>
    rw [List.flatMap_cons, List.append_assoc, stringFrom_writtenChar (by simp), ih]
    simp [Nat.add_assoc]

/-! ## Tokens -/

theorem toList_writtenText (s : String) :
    (writtenText s).toList = '"' :: (s.toList.flatMap writtenChar ++ ['"']) := by
  simp [writtenText]

theorem lexeme_writtenText (s : String) :
    lexeme position '"' (s.toList.flatMap writtenChar ++ '"' :: rest) =
      (.scalar (.text s), (writtenText s).toList.length) := by
  rw [toList_writtenText]
  simp [lexeme, stringFrom_written]
  omega

/-- A text that was written is one token. -/
theorem tokensFrom_writtenText {tokens : List Token} (s : String) :
    tokensFrom tokens position ((writtenText s).toList ++ rest) =
      tokensFrom (⟨position, .scalar (.text s)⟩ :: tokens) (position + (writtenText s).toList.length)
        rest := by
  have after : (s.toList.flatMap writtenChar ++ '"' :: rest).drop
      ((writtenText s).toList.length - 1) = rest := by
    have closed : s.toList.flatMap writtenChar ++ '"' :: rest =
        (s.toList.flatMap writtenChar ++ ['"']) ++ rest := by simp
    rw [toList_writtenText, List.length_cons, Nat.add_sub_cancel, closed, List.drop_left]
  have opened : (writtenText s).toList ++ rest =
      '"' :: (s.toList.flatMap writtenChar ++ '"' :: rest) := by
    simp [toList_writtenText]
  rw [opened, tokensFrom, if_neg (by decide), lexeme_writtenText]
  simp only [after]

theorem tokensFrom_symbol {tokens : List Token} {c : Char} (h : c ∈ ['[', ']', ',']) :
    tokensFrom tokens position (c :: rest) =
      tokensFrom (⟨position, .symbol c⟩ :: tokens) (position + 1) rest := by
  simp only [List.mem_cons, List.not_mem_nil, or_false] at h
  rcases h with rfl | rfl | rfl <;> simp [tokensFrom, isSpace, lexeme]

theorem tokensFrom_space {tokens : List Token} :
    tokensFrom tokens position (' ' :: rest) = tokensFrom tokens (position + 1) rest := by
  rw [tokensFrom, if_pos (by decide)]

/-! ## Lists -/

/-- What is written behind an item of a list. -/
def writtenTail (items : List String) : List Char :=
  items.flatMap (fun s => ',' :: ' ' :: (writtenText s).toList) ++ [']']

theorem writeItems_texts (items : List String) :
    writeItems (items.map .text) = items.map writtenText := by
  induction items with
  | nil => rfl
  | cons s rest ih =>
    rw [List.map_cons, writeItems, ih, write]
    rfl

theorem intercalate_cons_flatMap {α : Type} (separator x : List α) (xs : List (List α)) :
    separator.intercalate (x :: xs) = x ++ xs.flatMap (separator ++ ·) := by
  induction xs generalizing x with
  | nil => simp
  | cons y ys ih => rw [List.intercalate_cons_cons, ih, List.flatMap_cons]; simp

theorem toList_write_texts (s : String) (rest : List String) :
    (write (.list ((s :: rest).map .text))).toList =
      '[' :: ((writtenText s).toList ++ writtenTail rest) := by
  rw [write, writeItems_texts]
  simp [intercalate_cons_flatMap, writtenTail, List.flatMap_map]

/-- The tokens behind an item make the rest of the list. -/
theorem readTokens_tail (items : List String) (before : List Datum) (tokens : List Token)
    (position length : Nat) :
    ∃ more, tokensFrom tokens position (writtenTail items) = tokens.reverse ++ more ∧
      readTokens length ⟨.separator, [.list before], .null⟩ more =
        .ok (.list (before.reverse ++ items.map .text)) := by
  induction items generalizing before tokens position with
  | nil =>
    refine ⟨[⟨position, .symbol ']'⟩], ?_, ?_⟩
    · rw [writtenTail, List.flatMap_nil, List.nil_append, tokensFrom_symbol (by decide), tokensFrom]
      simp
    · simp [readTokens, Reading.step, Reading.separate, Reading.close?, Reading.complete, Reading.finish]
  | cons s items ih =>
    obtain ⟨more, tail, read⟩ := ih (.text s :: before)
      (⟨position + 1 + 1, .scalar (.text s)⟩ :: ⟨position, .symbol ','⟩ :: tokens)
      (position + 1 + 1 + (writtenText s).toList.length)
    refine ⟨⟨position, .symbol ','⟩ :: ⟨position + 1 + 1, .scalar (.text s)⟩ :: more, ?_, ?_⟩
    · have written : writtenTail (s :: items) =
          ',' :: ' ' :: ((writtenText s).toList ++ writtenTail items) := by
        simp [writtenTail]
      rw [written, tokensFrom_symbol (by decide), tokensFrom_space, tokensFrom_writtenText, tail]
      simp
    · simpa [readTokens, Reading.step, Reading.separate, Reading.begin, Reading.complete] using read

/-- A list of texts reads back as it was written. -/
theorem readText_write_texts (items : List String) :
    readText (write (.list (items.map .text))).toList = .ok (.list (items.map .text)) := by
  cases items with
  | nil =>
    have cut : tokens ['[', ']'] = [⟨0, .symbol '['⟩, ⟨1, .symbol ']'⟩] := by
      rw [tokens, tokensFrom_symbol (by decide), tokensFrom_symbol (by decide), tokensFrom]
      rfl
    change readText ['[', ']'] = _
    rw [readText, cut]
    rfl
  | cons s rest =>
    rw [toList_write_texts]
    let cs := '[' :: ((writtenText s).toList ++ writtenTail rest)
    obtain ⟨more, tail, read⟩ := readTokens_tail rest [.text s]
      [⟨1, .scalar (.text s)⟩, ⟨0, .symbol '['⟩] (1 + (writtenText s).toList.length) cs.length
    have cut : tokens cs = ⟨0, .symbol '['⟩ :: ⟨1, .scalar (.text s)⟩ :: more := by
      rw [tokens, tokensFrom_symbol (by decide), tokensFrom_writtenText, tail]
      rfl
    have whole : readTokens cs.length ⟨.value, [], .null⟩ (tokens cs) =
        readTokens cs.length ⟨.separator, [.list [.text s]], .null⟩ more := by
      rw [cut]
      rfl
    rw [readText, whole, read]
    rfl

end CodeOutline.Json
