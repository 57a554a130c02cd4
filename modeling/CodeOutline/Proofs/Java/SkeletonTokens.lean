import CodeOutline.Proofs.Java.Skeleton
import CodeOutline.Proofs.Java.Token

/-!
# The tokens of skeletons

The text of a skeleton is cut into the tokens that it was written from (`tokens_charsOfList`). Each part of
the text is cut off in front of whatever follows, so that the parts are put together without a look back;
only a word needs to know that what follows it does not go on with it.
-/

namespace CodeOutline.Java

open CodeOutline.Text

/-! ## One lexeme -/

section Lexemes

variable {s : Scan} {c : Char} {text after : List Char}

theorem tokensFrom_of_token {kind : TokenKind} {nesting : Nesting}
    (h : lexeme s.nesting c (text ++ after) = (.token kind, text.length + 1, nesting))
    (live : kind ≠ .stray) :
    tokensFrom s (c :: (text ++ after)) = s.token kind (c :: text) ::
      tokensFrom { nesting, row := (s.token kind (c :: text)).endRow } after := by
  rw [tokensFrom, h]
  simp only [Nat.add_sub_cancel, List.take_left, List.drop_left]

theorem tokensFrom_of_space (h : isSpace c) :
    tokensFrom s (c :: after) = tokensFrom (s.skip [c]) after := by
  have space : lexeme s.nesting c after = (.space, 1, s.nesting) := if_pos h
  rw [tokensFrom, space]
  rfl

theorem tokensFrom_of_comment
    (h : lexeme s.nesting c (text ++ after) = (.comment, text.length + 1, s.nesting)) :
    tokensFrom s (c :: (text ++ after)) =
      tokensFrom { s.skip (c :: text) with comments := s.comment (c :: text) :: s.comments } after := by
  rw [tokensFrom, h]
  simp only [Nat.add_sub_cancel, List.take_left, List.drop_left]

end Lexemes

/-- The token of the given text that ends the current gap, when there is no line feed in the text. -/
def Scan.put (s : Scan) (kind : TokenKind) (text : String) : Token :=
  { kind, text, gap := String.ofList s.gap.reverse, comments := s.comments.reverse, row := s.row
    endRow := s.row }

/-- Directly behind a token. -/
def Scan.tight (row : Nat) : Scan :=
  { row }

/-- Behind a token and a space. -/
def Scan.spaced (row : Nat) : Scan :=
  { row, gap := [' '] }

/-- At the beginning of a row. -/
def Scan.fresh (row : Nat) : Scan :=
  { row, gap := ['\n'] }

namespace Scan

variable {s : Scan} {rest : List Char}

theorem token_toList (s : Scan) (kind : TokenKind) {text : String} (h : '\n' ∉ text.toList) :
    s.token kind text.toList = s.put kind text := by
  rw [token, put, String.ofList_toList, List.count_eq_zero.2 h, Nat.add_zero]

end Scan

/-! ## Words and symbols -/

/-- A word begins with a dollar sign or behind the digits. -/
theorem le_of_isWordStart {c : Char} (h : isWordStart c) : c = '$' ∨ 58 ≤ c.toNat := by
  have early : ∀ n < 58, isWordStart (Char.ofNat n) → Char.ofNat n = '$' := by decide
  by_cases less : c.toNat < 58
  · have dollar := early c.toNat less
    rw [Char.ofNat_toNat] at dollar
    exact .inl (dollar h)
  · exact .inr (Nat.le_of_not_lt less)

theorem isWordStart_not_space {c : Char} (h : isWordStart c) : isSpace c = false := by
  rcases le_of_isWordStart h with rfl | late
  · rfl
  · refine Bool.eq_false_iff.2 fun space => ?_
    simp only [isSpace, Bool.or_eq_true, beq_iff_eq, Bool.and_eq_true, decide_eq_true_eq] at space
    rcases space with rfl | between
    · exact absurd late (by decide)
    · omega

theorem isWordStart_not_digit {c : Char} (h : isWordStart c) : c.isDigit = false := by
  rcases le_of_isWordStart h with rfl | late
  · rfl
  · refine Bool.eq_false_iff.2 fun digit => ?_
    have : c.toNat ≤ 57 := by
      simp [Char.isDigit] at digit
      exact digit.2
    omega

theorem Word.tokensFrom (w : Word) {s : Scan} (flat : s.nesting = []) {after : List Char}
    (ends : ∀ c ∈ after.head?, isWordPart c = false) :
    tokensFrom s (w.text.toList ++ after) =
      s.put .word w.text :: tokensFrom (.tight s.row) after := by
  obtain ⟨d, ds, spelled, start, parts⟩ := w.spelled
  have slash : d ≠ '/' := by
    rintro rfl
    cases start
  have taken : (ds ++ after).takeWhile isWordPart = ds := by
    rw [List.takeWhile_append_of_pos parts]
    cases after with
    | nil => exact List.append_nil ds
    | cons c rest =>
      rw [List.takeWhile_cons_of_neg (by simp [ends c rfl]), List.append_nil]
  have word : lexeme s.nesting d (ds ++ after) = (.token .word, ds.length + 1, []) := by
    simp only [lexeme, isWordStart_not_space start, slash, start, taken, flat, decide_false,
      Bool.false_and, if_true, Bool.false_eq_true, if_false, Nat.add_comm 1]
  have unbroken : '\n' ∉ w.text.toList := by
    rw [spelled]
    intro h
    rcases List.mem_cons.1 h with h | h
    · exact absurd (h ▸ start) (by decide)
    · exact absurd (parts _ h) (by decide)
  rw [spelled, List.cons_append, tokensFrom_of_token word (by decide), ← spelled,
    s.token_toList .word unbroken]
  rfl

/-- All that may stand in a word is taken for one. -/
theorem isPrefix_of_parts {part word after : List Char} (ends : ∀ c ∈ after.head?, isWordPart c = false)
    (parts : ∀ c ∈ part, isWordPart c) (h : part <+: word ++ after) : part <+: word := by
  induction part generalizing word with
  | nil => exact List.nil_prefix
  | cons c part ih =>
    cases word with
    | nil =>
      obtain ⟨rest, rfl⟩ := h
      cases (ends c rfl).symm.trans (parts c List.mem_cons_self)
    | cons d word =>
      obtain ⟨rfl, below⟩ := List.cons_prefix_cons.1 h
      exact List.cons_prefix_cons.2
        ⟨rfl, ih (fun c hc => parts c (List.mem_cons_of_mem _ hc)) below⟩

section Symbols

variable {s : Scan} (flat : s.nesting = []) {c : Char} {rest : List Char}

include flat

theorem tokensFrom_symbol (text : String) (spelled : text.toList = [c]) (filled : c ≠ '\n')
    (h : lexeme [] c rest = (.token .symbol, 1, [])) :
    tokensFrom s (c :: rest) = s.put .symbol text :: tokensFrom (.tight s.row) rest := by
  have unbroken : '\n' ∉ text.toList := by
    rw [spelled, List.mem_singleton]
    exact filled.symm
  rw [← flat] at h
  rw [← List.nil_append rest, tokensFrom_of_token h (by decide), ← spelled,
    s.token_toList .symbol unbroken, flat]
  rfl

theorem tokensFrom_dot (w : Word) (after : List Char) :
    tokensFrom s ('.' :: (w.text.toList ++ after)) =
      s.put .symbol "." :: tokensFrom (.tight s.row) (w.text.toList ++ after) := by
  obtain ⟨c, cs, spelled, start, -⟩ := w.spelled
  refine tokensFrom_symbol flat _ rfl (by decide) ?_
  rw [spelled, List.cons_append]
  have symbol : symbolLength ('.' :: c :: (cs ++ after)) = some 1 := by
    have dot : c ≠ '.' := by
      rintro rfl
      cases start
    have dots : (longSymbols.find? (·.isPrefixOf ('.' :: c :: (cs ++ after)))) = none := by
      simp [longSymbols, dot.symm]
    rw [symbolLength, dots]
    rfl
  have plain : isSpace '.' = false ∧ isWordStart '.' = false := by decide
  simp [lexeme, plain, isWordStart_not_digit start, symbol]

/-- The word behind the sign must not make one symbol with it. -/
theorem tokensFrom_at {word after : List Char} (ends : ∀ c ∈ after.head?, isWordPart c = false)
    (free : ¬ "interface".toList <+: word) :
    tokensFrom s ('@' :: (word ++ after)) =
      s.put .symbol "@" :: tokensFrom (.tight s.row) (word ++ after) := by
  refine tokensFrom_symbol flat _ rfl (by decide) ?_
  have symbol : symbolLength ('@' :: (word ++ after)) = some 1 := by
    have other : ¬ "interface".toList <+: word ++ after := fun h =>
      free (isPrefix_of_parts ends (List.all_eq_true.1 (by decide)) h)
    have none : longSymbols.find? (·.isPrefixOf ('@' :: (word ++ after))) = none := by
      simpa [longSymbols] using other
    rw [symbolLength, none]
    rfl
  have plain : isSpace '@' = false ∧ isWordStart '@' = false := by decide
  simp [lexeme, plain, symbol]

end Symbols

/-! ## Comments -/

/-- A line in which nothing closes the comment. -/
theorem blockLength_line {line : List Char} (open_ : ¬ ['*', '/'] <:+: line) (rest : List Char) :
    blockLength (line ++ '\n' :: rest) = (blockLength rest).map (· + (line.length + 1)) := by
  induction line with
  | nil => rfl
  | cons c line ih =>
    have below : ¬ ['*', '/'] <:+: line := fun h => open_ (h.trans (List.suffix_cons c line).isInfix)
    have further : blockLength (c :: (line ++ '\n' :: rest)) =
        (blockLength (line ++ '\n' :: rest)).map (· + 1) := by
      rw [blockLength]
      rintro tail rfl slash
      cases line with
      | nil => cases slash
      | cons d line =>
        obtain ⟨rfl, -⟩ := List.cons.inj slash
        exact open_ ⟨[], line, rfl⟩
    rw [List.cons_append, further, ih below, Option.map_map]
    rfl

theorem blockLength_docInside (lines : List CommentLine) (rest : List Char) :
    blockLength ('*' :: (docInside lines ++ '*' :: '/' :: rest)) =
      some ((docInside lines).length + 3) := by
  have starred (line : CommentLine) : ¬ ['*', '/'] <:+: " * ".toList ++ line.text.toList := by
    have := line.unclosed
    simpa [List.infix_cons_iff] using this
  have inside : blockLength (lines.flatMap (fun line =>
      " * ".toList ++ (line.text.toList ++ ['\n'])) ++ ' ' :: '*' :: '/' :: rest) =
      some ((lines.flatMap (fun line =>
        " * ".toList ++ (line.text.toList ++ ['\n']))).length + 3) := by
    induction lines with
    | nil => rfl
    | cons line lines ih =>
      have cut (more : List Char) : " * ".toList ++ (line.text.toList ++ ['\n']) ++ more =
          (" * ".toList ++ line.text.toList) ++ '\n' :: more := by
        rw [← List.append_assoc, List.append_assoc _ ['\n'], List.singleton_append]
      rw [List.flatMap_cons, List.append_assoc, cut, blockLength_line (starred line), ih,
        Option.map_some, List.length_append, List.length_append, List.length_append,
        List.length_append, List.length_singleton]
      congr 1
      omega
  have opened : '*' :: (docInside lines ++ '*' :: '/' :: rest) = ['*'] ++ '\n' ::
      (lines.flatMap (fun line => " * ".toList ++ (line.text.toList ++ ['\n'])) ++
        ' ' :: '*' :: '/' :: rest) := by
    rw [docInside, List.cons_append, List.append_assoc]
    rfl
  rw [opened, blockLength_line (by decide), inside, docInside, Option.map_some]
  simp only [List.length_cons, List.length_append, List.length_nil]

theorem count_docComment (lines : List CommentLine) :
    (docComment lines).count '\n' = lines.length + 1 := by
  have inside : (lines.flatMap (fun line => " * ".toList ++ (line.text.toList ++ ['\n']))).count '\n' =
      lines.length := by
    induction lines with
    | nil => rfl
    | cons line lines ih =>
      have unbroken : line.text.toList.count '\n' = 0 :=
        List.count_eq_zero.2 fun h => Bool.noConfusion (line.unbroken _ h)
      rw [List.flatMap_cons, List.count_append, List.count_append, List.count_append, ih, unbroken,
        List.length_cons]
      exact Nat.add_comm _ _
  rw [docComment, docInside, List.count_append, List.count_append, List.count_cons, List.count_append,
    inside]
  simp

/-- The scan behind the comment of a declaration. -/
def Heading.lead (h : Heading) (s : Scan) : Scan :=
  { s with
    row := s.row + h.rows
    gap := h.commentChars.reverse ++ s.gap
    comments := h.comments s.row ++ s.comments }

theorem tokensFrom_commentChars (h : Heading) (s : Scan) (after : List Char) :
    tokensFrom s (h.commentChars ++ after) = tokensFrom (h.lead s) after := by
  unfold Heading.lead Heading.commentChars Heading.comments Heading.rows
  split
  · rfl
  · let text := '*' :: '*' :: (docInside h.comment ++ ['*', '/'])
    have whole : '/' :: text = docComment h.comment := rfl
    have cut (more : List Char) : text ++ more =
        '*' :: '*' :: (docInside h.comment ++ '*' :: '/' :: more) := by
      simp [text]
    have comment : lexeme s.nesting '/' (text ++ '\n' :: after) =
        (.comment, text.length + 1, s.nesting) := by
      rw [cut]
      simp [lexeme, isSpace, blockLength_docInside, text]
    rw [← whole, List.append_assoc, List.cons_append, List.singleton_append,
      tokensFrom_of_comment comment, tokensFrom_of_space (by decide), whole]
    simp only [Scan.skip, Scan.comment, count_docComment, List.reverse_append]
    rfl

/-! ## Declarations -/

/-- The words that begin a declaration here. -/
def Word.int : Word := ⟨"int", 'i', ['n', 't'], rfl, by decide, List.all_eq_true.1 (by decide)⟩
def Word.void : Word := ⟨"void", 'v', ['o', 'i', 'd'], rfl, by decide, List.all_eq_true.1 (by decide)⟩
def Word.class : Word :=
  ⟨"class", 'c', ['l', 'a', 's', 's'], rfl, by decide, List.all_eq_true.1 (by decide)⟩

/-- The tokens of words with a dot before each. -/
def dottedTokens (row : Nat) : List Word → List Token
  | [] => []
  | word :: words =>
    (Scan.tight row).put .symbol "." :: (Scan.tight row).put .word word.text ::
      dottedTokens row words

def DottedName.tokens (s : Scan) (name : DottedName) : List Token :=
  s.put .word name.first.text :: dottedTokens s.row name.rest

/-- The tokens of annotations. -/
def annotationTokens (s : Scan) : List DottedName → List Token
  | [] => []
  | name :: names =>
    s.put .symbol "@" :: (name.tokens (.tight s.row) ++ annotationTokens (.spaced s.row) names)

/-- The scan behind annotations. -/
def Scan.behind (s : Scan) (names : List DottedName) : Scan :=
  if names.isEmpty then s else .spaced s.row

/-- The tokens of a declaration up to its name. -/
def Heading.tokens (s : Scan) (h : Heading) (keyword : Word) : List Token :=
  annotationTokens s h.annotations ++
    [(s.behind h.annotations).put .word keyword.text, (Scan.spaced s.row).put .word h.name.text]

mutual

/-- The tokens of a declaration, the first of which has the comment before it. -/
def Skeleton.tokens (s : Scan) : Skeleton → List Token
  | .field h =>
    let r := s.row + h.rows
    h.tokens (h.lead s) .int ++ [(Scan.tight r).put .symbol ";"]
  | .method h =>
    let r := s.row + h.rows
    h.tokens (h.lead s) .void ++ [(Scan.tight r).put .symbol "(", (Scan.tight r).put .symbol ")",
      (Scan.spaced r).put .symbol "\x7b", (Scan.tight r).put .symbol "\x7d"]
  | .type h body =>
    let r := s.row + h.rows
    h.tokens (h.lead s) .class ++ (Scan.spaced r).put .symbol "\x7b" ::
      (Skeleton.tokensOfList (.fresh (r + 1)) body ++
        [(Scan.fresh (r + 1 + Skeleton.rowsOfList body)).put .symbol "\x7d"])

def Skeleton.tokensOfList (s : Scan) : List Skeleton → List Token
  | [] => []
  | d :: ds => d.tokens s ++ Skeleton.tokensOfList (.fresh (s.row + d.rows)) ds

end

/-- The scan behind declarations. -/
def Scan.below (s : Scan) (ds : List Skeleton) : Scan :=
  if ds.isEmpty then s else .fresh (s.row + Skeleton.rowsOfList ds)

theorem Scan.row_below (s : Scan) (ds : List Skeleton) :
    (s.below ds).row = s.row + Skeleton.rowsOfList ds := by
  cases ds <;> rfl

theorem Scan.fresh_below (row : Nat) (ds : List Skeleton) :
    (Scan.fresh row).below ds = .fresh (row + Skeleton.rowsOfList ds) := by
  cases ds <;> rfl

/-- An annotation that is not read as the beginning of a type. -/
def DottedName.Plain (name : DottedName) : Prop :=
  ¬ "interface".toList <+: name.first.text.toList

instance (name : DottedName) : Decidable name.Plain :=
  inferInstanceAs (Decidable (¬ _))

mutual

/-- The annotations on a declaration and in it. -/
def Skeleton.annotations : Skeleton → List DottedName
  | .field h | .method h => h.annotations
  | .type h body => h.annotations ++ Skeleton.annotationsOfList body

def Skeleton.annotationsOfList : List Skeleton → List DottedName
  | [] => []
  | d :: ds => d.annotations ++ Skeleton.annotationsOfList ds

end

section Declarations

variable {row : Nat} {s : Scan} {after : List Char}

/-- What ends a word also ends it behind more words. -/
theorem ends_dotted (words : List Word) (ends : ∀ c ∈ after.head?, isWordPart c = false) :
    ∀ c ∈ ((words.flatMap fun word => '.' :: word.text.toList) ++ after).head?,
      isWordPart c = false := by
  cases words with
  | nil => exact ends
  | cons word words =>
    rintro c ⟨⟩
    decide

theorem tokensFrom_dotted (words : List Word) (ends : ∀ c ∈ after.head?, isWordPart c = false) :
    tokensFrom (.tight row) ((words.flatMap fun word => '.' :: word.text.toList) ++ after) =
      dottedTokens row words ++ tokensFrom (.tight row) after := by
  induction words with
  | nil => rfl
  | cons word words ih =>
    rw [List.flatMap_cons, List.append_assoc, List.cons_append, tokensFrom_dot rfl,
      word.tokensFrom rfl (ends_dotted words ends)]
    exact congrArg (_ :: _ :: ·) ih

theorem DottedName.tokensFrom (name : DottedName) (flat : s.nesting = [])
    (ends : ∀ c ∈ after.head?, isWordPart c = false) :
    tokensFrom s (name.chars ++ after) = name.tokens s ++ tokensFrom (.tight s.row) after := by
  rw [chars, List.append_assoc, name.first.tokensFrom flat (ends_dotted name.rest ends),
    tokensFrom_dotted name.rest ends]
  rfl

theorem tokensFrom_annotations (names : List DottedName) (flat : s.nesting = [])
    (plain : ∀ name ∈ names, name.Plain) :
    tokensFrom s ((names.flatMap fun name => '@' :: (name.chars ++ [' '])) ++ after) =
      annotationTokens s names ++ tokensFrom (s.behind names) after := by
  induction names generalizing s with
  | nil => rfl
  | cons name names ih =>
    have space : ∀ c ∈ (' ' :: ((names.flatMap fun name => '@' :: (name.chars ++ [' '])) ++ after)).head?,
        isWordPart c = false := by
      rintro c ⟨⟩
      decide
    have sign := tokensFrom_at flat (ends_dotted name.rest space) (plain name List.mem_cons_self)
    rw [← List.append_assoc, ← DottedName.chars] at sign
    rw [List.flatMap_cons, List.cons_append, List.cons_append, List.append_assoc, List.append_assoc,
      List.singleton_append, sign, name.tokensFrom rfl space, tokensFrom_of_space (by decide)]
    have more := ih (s := .spaced s.row) rfl fun n hn => plain n (List.mem_cons_of_mem _ hn)
    have spaced : (Scan.spaced s.row).behind names = .spaced s.row := by
      unfold Scan.behind
      split <;> rfl
    rw [spaced] at more
    rw [annotationTokens, List.cons_append, List.append_assoc]
    exact congrArg (fun ts => s.put .symbol "@" :: (name.tokens (.tight s.row) ++ ts)) more

theorem Heading.tokensFrom (h : Heading) (keyword : Word) (flat : s.nesting = [])
    (plain : ∀ name ∈ h.annotations, name.Plain) (ends : ∀ c ∈ after.head?, isWordPart c = false) :
    tokensFrom s (h.chars ++ (keyword.text.toList ++ ' ' :: (h.name.text.toList ++ after))) =
      h.tokens (h.lead s) keyword ++ tokensFrom (.tight (s.row + h.rows)) after := by
  have space : ∀ c ∈ (' ' :: (h.name.text.toList ++ after)).head?, isWordPart c = false := by
    rintro c ⟨⟩
    decide
  have flat' : ((h.lead s).behind h.annotations).nesting = [] := by
    unfold Scan.behind
    split
    · exact flat
    · rfl
  have row : ((h.lead s).behind h.annotations).row = s.row + h.rows := by
    unfold Scan.behind
    split <;> rfl
  rw [chars, List.append_assoc, tokensFrom_commentChars,
    tokensFrom_annotations (s := h.lead s) h.annotations flat plain, keyword.tokensFrom flat' space,
    tokensFrom_of_space (by decide), row]
  have name := h.name.tokensFrom (s := .spaced (s.row + h.rows)) rfl ends
  rw [tokens, List.append_assoc]
  exact congrArg (fun ts => annotationTokens (h.lead s) h.annotations ++
    ((h.lead s).behind h.annotations).put .word keyword.text :: ts) name

mutual

theorem Skeleton.tokensFrom {s : Scan} {after : List Char} (flat : s.nesting = []) :
    (d : Skeleton) → (∀ name ∈ d.annotations, name.Plain) →
    tokensFrom s (d.chars ++ after) = d.tokens s ++ tokensFrom (.fresh (s.row + d.rows)) after
  | .field h, plain => by
    have parts : (Skeleton.field h).chars ++ after = h.chars ++ (Word.int.text.toList ++
        ' ' :: (h.name.text.toList ++ ';' :: '\n' :: after)) := by
      rw [Skeleton.chars, List.append_assoc, List.append_assoc, List.append_assoc]
      rfl
    rw [parts, h.tokensFrom .int flat plain (by rintro c ⟨⟩; decide),
      tokensFrom_symbol (c := ';') rfl ";" rfl (by decide) rfl, tokensFrom_of_space (by decide),
      Skeleton.tokens, List.append_assoc]
    rfl
  | .method h, plain => by
    have parts : (Skeleton.method h).chars ++ after = h.chars ++ (Word.void.text.toList ++
        ' ' :: (h.name.text.toList ++ '(' :: ')' :: ' ' :: '\x7b' :: '\x7d' :: '\n' :: after)) := by
      rw [Skeleton.chars, List.append_assoc, List.append_assoc, List.append_assoc]
      rfl
    rw [parts, h.tokensFrom .void flat plain (by rintro c ⟨⟩; decide),
      tokensFrom_symbol (c := '(') rfl "(" rfl (by decide) rfl,
      tokensFrom_symbol (c := ')') rfl ")" rfl (by decide) rfl, tokensFrom_of_space (by decide),
      tokensFrom_symbol (c := '\x7b') rfl "\x7b" rfl (by decide) rfl,
      tokensFrom_symbol (c := '\x7d') rfl "\x7d" rfl (by decide) rfl, tokensFrom_of_space (by decide),
      Skeleton.tokens, List.append_assoc]
    rfl
  | .type h body, plain => by
    have parts : (Skeleton.type h body).chars ++ after = h.chars ++ (Word.class.text.toList ++
        ' ' :: (h.name.text.toList ++ ' ' :: '\x7b' :: '\n' ::
          (Skeleton.charsOfList body ++ '\x7d' :: '\n' :: after))) := by
      rw [Skeleton.chars]
      simp only [List.append_assoc]
      rfl
    rw [parts, h.tokensFrom .class flat (fun n hn => plain n (List.mem_append_left _ hn))
        (by rintro c ⟨⟩; decide), tokensFrom_of_space (by decide),
      tokensFrom_symbol (c := '\x7b') rfl "\x7b" rfl (by decide) rfl, tokensFrom_of_space (by decide)]
    have inside : Java.tokensFrom (.fresh (s.row + h.rows + 1))
        (Skeleton.charsOfList body ++ '\x7d' :: '\n' :: after) = _ :=
      Skeleton.tokensFrom_charsOfList rfl body fun n hn => plain n (List.mem_append_right _ hn)
    rw [Scan.fresh_below, tokensFrom_symbol (c := '\x7d') rfl "\x7d" rfl (by decide) rfl,
      tokensFrom_of_space (by decide)] at inside
    have last : s.row + (Skeleton.type h body).rows =
        s.row + h.rows + 1 + Skeleton.rowsOfList body + 1 := by
      rw [Skeleton.rows]
      omega
    rw [Skeleton.tokens, List.append_assoc, List.cons_append, List.append_assoc, last]
    exact congrArg (fun ts => h.tokens (h.lead s) .class ++
      (Scan.spaced (s.row + h.rows)).put .symbol "\x7b" :: ts) inside

theorem Skeleton.tokensFrom_charsOfList {s : Scan} {after : List Char} (flat : s.nesting = []) :
    (ds : List Skeleton) → (∀ name ∈ Skeleton.annotationsOfList ds, name.Plain) →
    tokensFrom s (Skeleton.charsOfList ds ++ after) =
      Skeleton.tokensOfList s ds ++ tokensFrom (s.below ds) after
  | [], _ => rfl
  | d :: ds, plain => by
    rw [Skeleton.charsOfList, List.append_assoc,
      Skeleton.tokensFrom flat d fun n hn => plain n (List.mem_append_left _ hn),
      Skeleton.tokensFrom_charsOfList rfl ds fun n hn => plain n (List.mem_append_right _ hn),
      Scan.fresh_below, Skeleton.tokensOfList, List.append_assoc, Nat.add_assoc]
    rfl

end

end Declarations

/-- A text of declarations has no byte order mark at its start. -/
theorem head_charsOfList (ds : List Skeleton) :
    (Skeleton.charsOfList ds).head? ≠ some '\uFEFF' := by
  cases ds with
  | nil => exact nofun
  | cons d ds =>
    have head (h : Heading) (c : Char) (cs : List Char) (other : c ≠ '\uFEFF') :
        (h.chars ++ c :: cs).head? ≠ some '\uFEFF' := by
      unfold Heading.chars Heading.commentChars
      split
      · cases h.annotations with
        | nil => exact fun same => other (Option.some.inj same)
        | cons => exact fun same => absurd (Option.some.inj same) (by decide)
      · exact fun same => absurd (Option.some.inj same) (by decide)
    rw [Skeleton.charsOfList]
    cases d with
    | field h | method h | type h body =>
      rw [Skeleton.chars, List.append_assoc]
      exact head h _ _ (by decide)

theorem tokens_charsOfList (ds : List Skeleton)
    (plain : ∀ name ∈ Skeleton.annotationsOfList ds, name.Plain) :
    tokens (String.ofList (Skeleton.charsOfList ds)) =
      Skeleton.tokensOfList {} ds ++ [(({} : Scan).below ds).put .finish ""] := by
  have all : tokensFrom {} (Skeleton.charsOfList ds ++ []) = _ :=
    Skeleton.tokensFrom_charsOfList rfl ds plain
  have finish (s : Scan) : tokensFrom s [] = [s.put .finish ""] := by
    rw [tokensFrom]
    have empty : '\n' ∉ "".toList := List.not_mem_nil
    exact congrArg (fun t => [t]) (s.token_toList .finish empty)
  rw [List.append_nil, finish] at all
  unfold tokens
  split
  · next rest mark =>
    rw [String.toList_ofList] at mark
    exact absurd (congrArg List.head? mark) (head_charsOfList ds)
  · rw [String.toList_ofList, all]

end CodeOutline.Java
