import CodeOutline.Text.Blank
import CodeOutline.Text.Lines
import Mathlib.Data.List.Infix
import Mathlib.Data.List.TakeWhile

/-!
# Trimmed texts and cut lines

What it is to trim a text and to cut it at its line breaks, said without the functions that do it. Both
have one result for each text: that of `trimChars` (`trimsTo_iff`) and that of `lines`
(`cutsInto_iff`).
-/

namespace CodeOutline.Text

/-! ## Trimming -/

/-- A text that begins and ends with characters that are not blank. -/
structure Trimmed (cs : List Char) : Prop where
  begins : ∃ c rest, cs = c :: rest ∧ isBlank c = false
  ends : ∃ front c, cs = front ++ [c] ∧ isBlank c = false

/-- The second text is the first one without the blanks at its ends. -/
def TrimsTo (cs text : List Char) : Prop :=
  ∃ before after, cs = before ++ (text ++ after) ∧ (∀ c ∈ before, isBlank c) ∧
    (∀ c ∈ after, isBlank c) ∧ (text ≠ [] → Trimmed text)

theorem trimsTo_trimChars (cs : List Char) : TrimsTo cs (trimChars cs) := by
  let after := ((cs.dropWhile isBlank).reverse.takeWhile isBlank).reverse
  have back : trimChars cs ++ after = cs.dropWhile isBlank := by
    rw [trimChars, ← List.reverse_append, List.takeWhile_append_dropWhile, List.reverse_reverse]
  have finish : (cs.dropWhile isBlank).reverse.dropWhile isBlank = (trimChars cs).reverse :=
    (List.reverse_reverse _).symm
  refine ⟨cs.takeWhile isBlank, after, ?_, fun c => List.mem_takeWhile_imp, ?_, fun filled => ⟨?_, ?_⟩⟩
  · rw [back, List.takeWhile_append_dropWhile]
  · exact fun c hc => List.mem_takeWhile_imp (List.mem_reverse.1 hc)
  · obtain ⟨c, rest, htext⟩ := List.exists_cons_of_ne_nil filled
    have first := List.head?_dropWhile_not isBlank cs
    rw [← back, htext] at first
    exact ⟨c, rest, htext, by simpa using first⟩
  · obtain ⟨front, c, htext⟩ := (List.eq_nil_or_concat' _).resolve_left filled
    have last := List.head?_dropWhile_not isBlank (cs.dropWhile isBlank).reverse
    rw [finish, htext, List.reverse_append] at last
    exact ⟨front, c, htext, by simpa using last⟩

namespace Trimmed

variable {cs ds : List Char}

theorem trimChars_eq (h : Trimmed cs) : trimChars cs = cs := by
  obtain ⟨c, rest, hcs, hc⟩ := h.begins
  obtain ⟨front, d, hds, hd⟩ := h.ends
  have start : cs.dropWhile isBlank = cs := by
    rw [hcs, List.dropWhile_cons_of_neg (by simp [hc])]
  rw [trimChars, start, hds, List.reverse_append, List.reverse_singleton, List.singleton_append,
    List.dropWhile_cons_of_neg (by simp [hd]), List.reverse_cons, List.reverse_reverse]

theorem cons {c : Char} (hc : isBlank c = false) (h : Trimmed cs) (ds : List Char) :
    Trimmed (c :: (ds ++ cs)) := by
  obtain ⟨front, d, rfl, hd⟩ := h.ends
  exact ⟨⟨c, _, rfl, hc⟩, ⟨c :: (ds ++ front), d, by simp, hd⟩⟩

theorem append (h : Trimmed cs) (h' : Trimmed ds) (between : List Char) :
    Trimmed (cs ++ (between ++ ds)) := by
  obtain ⟨c, rest, rfl, hc⟩ := h.begins
  rw [List.cons_append, ← List.append_assoc]
  exact h'.cons hc _

/-- What is left of a text when it is trimmed. -/
theorem of_trimChars (filled : cs ≠ []) (h : trimChars cs = cs) : Trimmed cs := by
  obtain ⟨_, _, -, -, -, trimmed⟩ := trimsTo_trimChars cs
  rw [h] at trimmed
  exact trimmed filled

end Trimmed

theorem trimChars_cons_of_isBlank {c : Char} (h : isBlank c) (cs : List Char) :
    trimChars (c :: cs) = trimChars cs := by
  rw [trimChars, List.dropWhile_cons_of_pos h, trimChars]

/-- Blanks at the ends do not count. -/
theorem trimChars_append {before cs after : List Char} (hb : ∀ c ∈ before, isBlank c)
    (ha : ∀ c ∈ after, isBlank c) : trimChars (before ++ (cs ++ after)) = trimChars cs := by
  rw [trimChars, List.dropWhile_append_of_pos hb]
  by_cases blank : ∀ c ∈ cs, isBlank c
  · have all : ∀ c ∈ cs ++ after, isBlank c := by
      intro c hc
      exact (List.mem_append.1 hc).elim (blank c) (ha c)
    rw [trimChars, List.dropWhile_eq_nil_iff.2 all, List.dropWhile_eq_nil_iff.2 blank]
  · have left : cs.dropWhile isBlank ≠ [] := fun none => blank (List.dropWhile_eq_nil_iff.1 none)
    have after' : ∀ c ∈ after.reverse, isBlank c := fun c hc => ha c (List.mem_reverse.1 hc)
    rw [List.dropWhile_append, if_neg (by simpa using left), List.reverse_append,
      List.dropWhile_append_of_pos after', trimChars]

theorem trimsTo_iff {cs text : List Char} : TrimsTo cs text ↔ trimChars cs = text := by
  constructor
  · rintro ⟨before, after, rfl, hb, ha, trimmed⟩
    rw [trimChars_append hb ha]
    by_cases filled : text = []
    · rw [filled]
      rfl
    · exact (trimmed filled).trimChars_eq
  · rintro rfl
    exact trimsTo_trimChars cs

theorem TrimsTo.isInfix {cs text : List Char} (h : TrimsTo cs text) : text <:+: cs := by
  obtain ⟨before, after, rfl, -⟩ := h
  exact ⟨before, after, List.append_assoc ..⟩

theorem trimChars_trimChars (cs : List Char) : trimChars (trimChars cs) = trimChars cs := by
  obtain ⟨_, _, -, -, -, trimmed⟩ := trimsTo_trimChars cs
  by_cases filled : trimChars cs = []
  · rw [filled]
    rfl
  · exact (trimmed filled).trimChars_eq

/-- Joined by line feeds, trimmed texts are a trimmed text. -/
theorem trimmed_intercalate {ls : List (List Char)} (nonempty : ls ≠ [])
    (h : ∀ line ∈ ls, Trimmed line) :
    Trimmed (['\n'].intercalate ls) := by
  induction ls with
  | nil => exact absurd rfl nonempty
  | cons line more ih =>
    obtain ⟨first, later⟩ := List.forall_mem_cons.1 h
    cases more with
    | nil =>
      rw [List.intercalate_singleton]
      exact first
    | cons next more =>
      rw [List.intercalate_cons_cons, List.append_assoc]
      exact first.append (ih (List.cons_ne_nil _ _) later) ['\n']

theorem trimChars_intercalate {ls : List (List Char)} (h : ∀ line ∈ ls, Trimmed line) :
    trimChars (['\n'].intercalate ls) = ['\n'].intercalate ls := by
  by_cases empty : ls = []
  · rw [empty]
    rfl
  · exact (trimmed_intercalate empty h).trimChars_eq

/-! ## Cutting at line breaks -/

/-- A line break in front of the rest of a text: a character that breaks lines, or a carriage return
with the line feed after it. -/
inductive BreakBefore : List Char → List Char → Prop where
  | pair (rest : List Char) : BreakBefore ['\r', '\n'] rest
  | single {c : Char} {rest : List Char} (breaks : isLineBreak c)
      (alone : c = '\r' → rest.head? ≠ some '\n') : BreakBefore [c] rest

/-- A text cut into its lines. A break at the very end opens no further line. -/
inductive CutsInto : List Char → List (List Char) → Prop where
  | nothing : CutsInto [] []
  | last {line : List Char} (filled : line ≠ []) (unbroken : ∀ c ∈ line, isLineBreak c = false) :
      CutsInto line [line]
  | next {line ending rest : List Char} {more : List (List Char)}
      (unbroken : ∀ c ∈ line, isLineBreak c = false) (breaks : BreakBefore ending rest)
      (cuts : CutsInto rest more) : CutsInto (line ++ (ending ++ rest)) (line :: more)

theorem linesFrom_cons {c : Char} {rest : List Char} (alone : c = '\r' → rest.head? ≠ some '\n')
    (line : List Char) : linesFrom line (c :: rest) =
      if isLineBreak c then line.reverse :: linesFrom [] rest else linesFrom (c :: line) rest := by
  rw [linesFrom]
  rintro rest' rfl rfl
  exact alone rfl rfl

theorem linesFrom_of_unbroken {cs : List Char} (h : ∀ c ∈ cs, isLineBreak c = false)
    (line rest : List Char) : linesFrom line (cs ++ rest) = linesFrom (cs.reverse ++ line) rest := by
  induction cs generalizing line with
  | nil => rfl
  | cons c cs ih =>
    obtain ⟨unbroken, hcs⟩ := List.forall_mem_cons.1 h
    have noReturn : c ≠ '\r' := by
      rintro rfl
      cases unbroken
    rw [List.cons_append, linesFrom_cons (fun same => absurd same noReturn),
      if_neg (by simp [unbroken]), ih hcs, List.reverse_cons, List.append_assoc]
    rfl

theorem linesFrom_of_break {ending rest : List Char} (h : BreakBefore ending rest)
    (line : List Char) : linesFrom line (ending ++ rest) = line.reverse :: linesFrom [] rest := by
  cases h with
  | pair => rfl
  | single breaks alone =>
    rw [List.singleton_append, linesFrom_cons alone, if_pos breaks]

/-- A line of a text with what is collected of it. -/
theorem linesFrom_append {cs : List Char} (h : ∀ c ∈ cs, isLineBreak c = false)
    (line rest : List Char) :
    linesFrom line (cs ++ '\n' :: rest) = (line.reverse ++ cs) :: linesFrom [] rest := by
  have feed : BreakBefore ['\n'] rest := .single (by decide) nofun
  rw [linesFrom_of_unbroken h, ← List.singleton_append, linesFrom_of_break feed]
  simp

theorem cutsInto_linesFrom {line : List Char} (h : ∀ c ∈ line, isLineBreak c = false)
    (cs : List Char) : CutsInto (line.reverse ++ cs) (linesFrom line cs) := by
  have unbroken : ∀ c ∈ line.reverse, isLineBreak c = false := fun c hc => h c (List.mem_reverse.1 hc)
  fun_induction linesFrom line cs with
  | case1 line empty =>
    rw [List.isEmpty_iff.1 empty]
    exact .nothing
  | case2 line filled =>
    rw [List.append_nil]
    exact .last (by simpa using filled) unbroken
  | case3 line rest ih => exact .next unbroken (.pair rest) (ih (by simp) (by simp))
  | case4 line c rest other breaks ih =>
    refine .next unbroken (.single breaks ?_) (ih (by simp) (by simp))
    rintro rfl feed
    obtain ⟨rest', rfl⟩ := List.head?_eq_some_iff.1 feed
    exact other rest' rfl rfl
  | case5 line c rest other goesOn ih =>
    have longer : ∀ d ∈ c :: line, isLineBreak d = false :=
      List.forall_mem_cons.2 ⟨Bool.eq_false_iff.2 goesOn, h⟩
    rw [List.append_cons, ← List.reverse_cons]
    exact ih longer fun d hd => longer d (List.mem_reverse.1 hd)

theorem cutsInto_iff {cs : List Char} {ls : List (List Char)} : CutsInto cs ls ↔ lines cs = ls := by
  constructor
  · intro h
    induction h with
    | nothing => rfl
    | @last line filled unbroken =>
      have whole := linesFrom_of_unbroken unbroken [] []
      rw [List.append_nil, List.append_nil] at whole
      rw [lines, whole, linesFrom, if_neg (by simpa using filled), List.reverse_reverse]
    | next unbroken breaks _ ih =>
      rw [lines, linesFrom_of_unbroken unbroken, linesFrom_of_break breaks, List.append_nil,
        List.reverse_reverse]
      exact congrArg _ ih
  · rintro rfl
    exact cutsInto_linesFrom (List.forall_mem_nil _) cs

/-- A line is a part of its text without a break in it. -/
theorem CutsInto.of_mem {cs line : List Char} {ls : List (List Char)} (h : CutsInto cs ls)
    (mem : line ∈ ls) :
    line <:+: cs ∧ ∀ c ∈ line, isLineBreak c = false := by
  induction h with
  | nothing => cases mem
  | last _ unbroken =>
    obtain rfl := List.mem_singleton.1 mem
    exact ⟨List.infix_rfl, unbroken⟩
  | @next first ending rest more unbroken _ _ ih =>
    rcases List.mem_cons.1 mem with rfl | mem
    · exact ⟨(List.prefix_append _ _).isInfix, unbroken⟩
    · obtain ⟨within, unbroken⟩ := ih mem
      have later : rest <:+: first ++ (ending ++ rest) := by
        rw [← List.append_assoc]
        exact (List.suffix_append _ _).isInfix
      exact ⟨within.trans later, unbroken⟩

/-- Lines that are joined by line feeds are the lines of the text. -/
theorem cutsInto_intercalate {ls : List (List Char)}
    (h : ∀ line ∈ ls, line ≠ [] ∧ ∀ c ∈ line, isLineBreak c = false) :
    CutsInto (['\n'].intercalate ls) ls := by
  induction ls with
  | nil => exact .nothing
  | cons line more ih =>
    obtain ⟨⟨filled, unbroken⟩, later⟩ := List.forall_mem_cons.1 h
    cases more with
    | nil =>
      rw [List.intercalate_singleton]
      exact .last filled unbroken
    | cons next more =>
      rw [List.intercalate_cons_cons, List.append_assoc]
      exact .next unbroken (.single (by decide) nofun) (ih later)

end CodeOutline.Text
