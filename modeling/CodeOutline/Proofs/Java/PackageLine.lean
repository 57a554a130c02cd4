import CodeOutline.Java.Package
import CodeOutline.Proofs.Text.Percent
import Mathlib.Data.List.Infix
import Mathlib.Data.List.TakeWhile

/-!
# The first package line

`findPackage` goes from line to line. Where it stops it has found the first line from which the text
reads as a package declaration (`findPackage_eq_some_iff`): blanks at the beginning of a declaration may
be blank lines, and then it begins on each of them, with the same name. In offsets, the namespace of a
text is the name at the smallest one at which a package is declared (`namespaceOf_eq_iff`).
-/

namespace CodeOutline.Java

open CodeOutline.Graph CodeOutline.Text

/-- What stands around the keyword, the name and the semicolon of a package declaration is blank, up to
the end of the line, and the name is plain. -/
structure StandsAlone (indent gap name gap' back : List Char) : Prop where
  indented : ∀ c ∈ indent, isBlank c
  separated : gap ≠ [] ∧ ∀ c ∈ gap, isBlank c
  named : name ≠ [] ∧ ∀ c ∈ name, isPackageChar c
  ended : ∀ c ∈ gap', isBlank c
  alone : ∀ c ∈ back.takeWhile (· != '\n'), isBlank c

/-- From its beginning on, the text reads as a package declaration. -/
structure PackageText (cs indent gap name gap' back : List Char) : Prop extends
    StandsAlone indent gap name gap' back where
  eq : cs = indent ++ ("package".toList ++ (gap ++ (name ++ (gap' ++ ';' :: back))))

/-- From its beginning on, the text reads as a declaration of the package. -/
def DeclaresPackage (cs name : List Char) : Prop :=
  ∃ indent gap gap' back, PackageText cs indent gap name gap' back

/-- The point after the text is the beginning of a line. -/
def AtLineStart (front : List Char) : Prop :=
  ∀ c, front.getLast? = some c → c = '\n'

/-- No line that begins within the first `n` characters reads as a package declaration. -/
def NoPackageBefore (n : Nat) (cs : List Char) : Prop :=
  ∀ front tail, cs = front ++ tail → AtLineStart front → front.length < n →
    ∀ name, ¬ DeclaresPackage tail name

/-- The first line from which the text reads as a package declaration declares the name. -/
def FirstPackage (cs name : List Char) : Prop :=
  ∃ front tail, cs = front ++ tail ∧ AtLineStart front ∧ DeclaresPackage tail name ∧
    NoPackageBefore front.length cs

/-! ## One declaration -/

theorem isBlank_of_isPackageChar {c : Char} (h : isPackageChar c) : isBlank c = false := by
  refine Percent.isBlank_of_isUnreserved ?_
  rw [Percent.isUnreserved]
  exact Bool.or_eq_true_iff.2 (.inl (Bool.or_eq_true_iff.2 (.inl h)))

section Spans

variable {p : Char → Bool} {front back : List Char} {c : Char}

/-- Where a run of characters ends. -/
theorem dropWhile_span (h : ∀ d ∈ front, p d) (hc : p c = false) :
    (front ++ c :: back).dropWhile p = c :: back := by
  rw [List.dropWhile_append_of_pos h, List.dropWhile_cons_of_neg (by simp [hc])]

theorem takeWhile_span (h : ∀ d ∈ front, p d) (hc : p c = false) :
    (front ++ c :: back).takeWhile p = front := by
  rw [List.takeWhile_append_of_pos h, List.takeWhile_cons_of_neg (by simp [hc]), List.append_nil]

end Spans

theorem packageAt_keyword (cs : List Char) : packageAt ("package".toList ++ cs) =
    match cs, ((cs.dropWhile isBlank).dropWhile isPackageChar).dropWhile isBlank with
    | blank :: _, ';' :: rest =>
      if isBlank blank && !((cs.dropWhile isBlank).takeWhile isPackageChar).isEmpty &&
          (rest.takeWhile (· != '\n')).all isBlank then
        some ((cs.dropWhile isBlank).takeWhile isPackageChar)
      else none
    | _, _ => none := by
  have keyword : "package".toList.isPrefixOf ("package".toList ++ cs) = true :=
    List.isPrefixOf_iff_prefix.2 (List.prefix_append _ _)
  unfold packageAt
  rewrite [if_pos keyword, List.drop_left]
  rfl

theorem packageAt_of_packageText {cs gap name gap' back : List Char}
    (h : PackageText cs [] gap name gap' back) : packageAt cs = some name := by
  obtain ⟨first, name', hname⟩ := List.exists_cons_of_ne_nil h.named.1
  obtain ⟨blank, gap'', hgap⟩ := List.exists_cons_of_ne_nil h.separated.1
  have notBlank : isBlank first = false :=
    isBlank_of_isPackageChar (h.named.2 first (hname ▸ List.mem_cons_self))
  have nameOn : (gap ++ (name ++ (gap' ++ ';' :: back))).dropWhile isBlank =
      name ++ (gap' ++ ';' :: back) := by
    rw [hname, List.cons_append, dropWhile_span h.separated.2 notBlank]
  have nameEnds : ∃ c rest, gap' ++ ';' :: back = c :: rest ∧ isPackageChar c = false := by
    cases hgap' : gap' with
    | nil => exact ⟨';', back, rfl, by decide⟩
    | cons c rest =>
      refine ⟨c, _, rfl, ?_⟩
      by_contra no
      have blank := h.ended c (hgap' ▸ List.mem_cons_self)
      rw [isBlank_of_isPackageChar (Bool.not_eq_false _ ▸ no)] at blank
      cases blank
  obtain ⟨c, rest, hrest, hc⟩ := nameEnds
  have afterName : ((name ++ (gap' ++ ';' :: back)).dropWhile isPackageChar).dropWhile isBlank =
      ';' :: back := by
    rw [hrest, dropWhile_span h.named.2 hc, ← hrest, dropWhile_span h.ended (by decide)]
  have name_eq : (name ++ (gap' ++ ';' :: back)).takeWhile isPackageChar = name := by
    rw [hrest, takeWhile_span h.named.2 hc]
  have rest_alone : (back.takeWhile (· != '\n')).all isBlank = true := List.all_eq_true.2 h.alone
  have begins : isBlank blank = true := h.separated.2 blank (hgap ▸ List.mem_cons_self)
  rw [h.eq, List.nil_append, packageAt_keyword, nameOn, afterName, name_eq, hgap]
  simp only [List.cons_append, begins, rest_alone, hname, List.isEmpty_cons, Bool.not_false,
    Bool.and_self, if_true]

theorem packageText_of_packageAt {cs name : List Char} (h : packageAt cs = some name) :
    ∃ gap gap' back, PackageText cs [] gap name gap' back := by
  have keyword : "package".toList <+: cs := by
    by_contra no
    rw [packageAt, if_neg (mt List.isPrefixOf_iff_prefix.1 no)] at h
    cases h
  obtain ⟨rest, rfl⟩ := keyword
  rw [packageAt_keyword] at h
  split at h
  · next blank tail back ends =>
    split at h
    · next ok =>
      cases h
      rw [Bool.and_eq_true, Bool.and_eq_true, Bool.not_eq_true', List.isEmpty_eq_false_iff,
        List.all_eq_true] at ok
      obtain ⟨⟨begins, named⟩, alone⟩ := ok
      let name := (blank :: tail).dropWhile isBlank
      refine ⟨(blank :: tail).takeWhile isBlank,
        (name.dropWhile isPackageChar).takeWhile isBlank, back,
        ⟨nofun, ⟨by simp [begins], fun c => List.mem_takeWhile_imp⟩,
          ⟨named, fun c => List.mem_takeWhile_imp⟩, fun c => List.mem_takeWhile_imp, alone⟩, ?_⟩
      rw [← ends, List.takeWhile_append_dropWhile, List.takeWhile_append_dropWhile,
        List.takeWhile_append_dropWhile, List.nil_append]
    · cases h
  · cases h

/-- Blanks before a declaration do not matter. -/
theorem declaresPackage_iff {cs name : List Char} :
    DeclaresPackage cs name ↔ packageAt (cs.dropWhile isBlank) = some name := by
  constructor
  · rintro ⟨indent, gap, gap', back, h⟩
    have unindented : cs.dropWhile isBlank =
        "package".toList ++ (gap ++ (name ++ (gap' ++ ';' :: back))) := by
      rw [h.eq]
      exact dropWhile_span h.indented (by decide)
    exact packageAt_of_packageText ⟨⟨nofun, h.separated, h.named, h.ended, h.alone⟩, unindented⟩
  · intro h
    obtain ⟨gap, gap', back, text⟩ := packageText_of_packageAt h
    refine ⟨cs.takeWhile isBlank, gap, gap', back, ⟨fun c => List.mem_takeWhile_imp,
      text.separated, text.named, text.ended, text.alone⟩, ?_⟩
    have unindented := text.eq
    rw [List.nil_append] at unindented
    rw [← unindented, List.takeWhile_append_dropWhile]

/-- The lines before a point, one by one. -/
theorem noPackageBefore_of_forall {n : Nat} {cs : List Char}
    (h : ∀ i < n, (cs.take i).getLast?.all (· == '\n') →
      packageAt ((cs.drop i).dropWhile isBlank) = none) : NoPackageBefore n cs := by
  rintro front tail rfl start less name declares
  have none := h front.length less
  rw [List.take_left, List.drop_left, Option.all_eq_true] at none
  rw [declaresPackage_iff, none fun c hc => beq_iff_eq.2 (start c hc)] at declares
  cases declares

/-! ## The search -/

theorem AtLineStart.of_append {front back : List Char} (h : AtLineStart (front ++ back)) :
    AtLineStart back := by
  intro c hc
  exact h c (by rw [List.getLast?_append, hc, Option.some_or])

theorem AtLineStart.after {line front : List Char} (h : AtLineStart front) :
    AtLineStart (line ++ '\n' :: front) := by
  intro c hc
  rw [List.append_cons, List.getLast?_append, List.getLast?_concat, Option.or_eq_some_iff] at hc
  rcases hc with hc | ⟨-, hc⟩
  · exact h c hc
  · exact (Option.some.inj hc).symm

/-- A line begins among the blanks at the beginning of the text, or after the line of the first other
character. -/
theorem AtLineStart.skip {front : List Char} (h : AtLineStart front) :
    (∀ c ∈ front, isBlank c) ∨ ∃ pre g, front = pre ++ '\n' :: g ∧ AtLineStart g ∧
      ∀ tail, ((front ++ tail).dropWhile isBlank).dropWhile (· != '\n') = '\n' :: (g ++ tail) := by
  by_cases blank : ∀ c ∈ front, isBlank c
  · exact .inl blank
  right
  have split : front.takeWhile isBlank ++ front.dropWhile isBlank = front :=
    List.takeWhile_append_dropWhile
  obtain ⟨x, more, hx⟩ : ∃ x more, front.dropWhile isBlank = x :: more :=
    List.exists_cons_of_ne_nil fun none => blank (List.dropWhile_eq_nil_iff.1 none)
  have notBlank : isBlank x = false := by
    have first := List.head?_dropWhile_not isBlank front
    rw [hx] at first
    simpa using first
  rw [hx] at split
  -- the line feed at the end of `front` is not among the blanks at its beginning
  have feed : '\n' ∈ x :: more := by
    have last := List.getLast?_eq_some_getLast (List.cons_ne_nil x more)
    have same := h _ (by rw [← split, List.getLast?_append, last, Option.some_or])
    exact List.mem_of_getLast? (last.trans (congrArg some same))
  obtain ⟨a, g, hag, ha⟩ := List.eq_append_cons_of_mem feed
  refine ⟨front.takeWhile isBlank ++ a, g, ?_, ?_, fun tail => ?_⟩
  · rw [List.append_assoc, ← hag, split]
  · rw [← split, hag, ← List.append_assoc, List.append_cons] at h
    exact h.of_append
  · have kept : ∀ c ∈ a, (c != '\n') = true := fun c hc => by
      rw [bne_iff_ne]
      rintro rfl
      exact ha hc
    conv_lhs => rw [← split, List.append_assoc, List.cons_append]
    rw [dropWhile_span (fun c hc => List.mem_takeWhile_imp hc) notBlank, ← List.cons_append, hag,
      List.append_assoc, List.cons_append]
    exact dropWhile_span kept (by decide)

theorem eq_of_declaresPackage {cs name name' : List Char} (h : DeclaresPackage cs name)
    (h' : DeclaresPackage cs name') : name = name' :=
  Option.some.inj ((declaresPackage_iff.1 h).symm.trans (declaresPackage_iff.1 h'))

/-- The lines that begin among the blanks before a declaration declare the same. -/
theorem declaresPackage_append_iff {front cs name : List Char} (h : ∀ c ∈ front, isBlank c) :
    DeclaresPackage (front ++ cs) name ↔ DeclaresPackage cs name := by
  rw [declaresPackage_iff, declaresPackage_iff, List.dropWhile_append_of_pos h]

/-- Where the first line declares nothing, a line that does begins after it, where the search goes
on. -/
theorem exists_rest {cs front tail name : List Char} (none : packageAt (cs.dropWhile isBlank) = none)
    (hcs : cs = front ++ tail) (start : AtLineStart front) (declares : DeclaresPackage tail name) :
    ∃ pre g, front = pre ++ '\n' :: g ∧ AtLineStart g ∧
      (cs.dropWhile isBlank).dropWhile (· != '\n') = '\n' :: (g ++ tail) := by
  subst hcs
  rcases start.skip with blank | ⟨pre, g, hfront, hg, skipped⟩
  · rw [← declaresPackage_append_iff blank, declaresPackage_iff, none] at declares
    cases declares
  · exact ⟨pre, g, hfront, hg, skipped tail⟩

theorem findPackage_eq_some_iff {cs name : List Char} :
    findPackage cs = some name ↔ FirstPackage cs name := by
  fun_induction findPackage cs with
  | case1 cs found here =>
    have declares : DeclaresPackage cs found := declaresPackage_iff.2 here
    constructor
    · rintro ⟨⟩
      exact ⟨[], cs, rfl, nofun, declares, nofun⟩
    · rintro ⟨front, tail, hcs, -, h, first⟩
      have atOnce : front = [] := by
        by_contra later
        exact first [] cs rfl nofun (List.length_pos_of_ne_nil later) found declares
      rw [atOnce, List.nil_append] at hcs
      rw [eq_of_declaresPackage declares (hcs ▸ h)]
  | case2 cs none last =>
    refine ⟨nofun, ?_⟩
    rintro ⟨front, tail, hcs, start, h, -⟩
    obtain ⟨_, _, -, -, skipped⟩ := exists_rest none hcs start h
    cases last.symm.trans skipped
  | case3 cs none feed rest next ih =>
    have notFeed : feed = '\n' := by
      have first := List.head?_dropWhile_not (· != '\n') (cs.dropWhile isBlank)
      rw [next] at first
      simpa using first
    subst notFeed
    obtain ⟨line, hline⟩ : ∃ line, cs = line ++ '\n' :: rest := by
      obtain ⟨blanks, hblanks⟩ := List.dropWhile_suffix (l := cs) isBlank
      obtain ⟨words, hwords⟩ := List.dropWhile_suffix (l := cs.dropWhile isBlank) (· != '\n')
      exact ⟨blanks ++ words, by rw [List.append_assoc, ← next, hwords, hblanks]⟩
    rw [ih]
    constructor
    · rintro ⟨front, tail, hrest, start, h, first⟩
      have hcs : cs = (line ++ '\n' :: front) ++ tail := by
        rw [hline, hrest, List.append_assoc, List.cons_append]
      refine ⟨_, tail, hcs, start.after, h, fun front' tail' hcs' start' less name' h' => ?_⟩
      obtain ⟨pre, g, rfl, hg, skipped⟩ := exists_rest none hcs' start' h'
      obtain ⟨-, hrest'⟩ := List.cons.inj (next.symm.trans skipped)
      refine first g tail' hrest' hg ?_ name' h'
      have lengths := congrArg List.length (hcs.symm.trans hcs')
      have lengths' := congrArg List.length (hrest.symm.trans hrest')
      simp only [List.length_append, List.length_cons] at lengths lengths' less
      omega
    · rintro ⟨front, tail, hcs, start, h, first⟩
      obtain ⟨pre, g, rfl, hg, skipped⟩ := exists_rest none hcs start h
      obtain ⟨-, hrest⟩ := List.cons.inj (next.symm.trans skipped)
      refine ⟨g, tail, hrest, hg, h, fun front' tail' hrest' start' less name' h' => ?_⟩
      have hcs' : cs = (line ++ '\n' :: front') ++ tail' := by
        rw [hline, hrest', List.append_assoc, List.cons_append]
      refine first _ tail' hcs' start'.after ?_ name' h'
      have lengths := congrArg List.length (hcs.symm.trans hcs')
      have lengths' := congrArg List.length (hrest.symm.trans hrest')
      simp only [List.length_append, List.length_cons] at lengths lengths' ⊢
      omega

/-- A line that reads as a package declaration is found, if not an earlier one. -/
theorem findPackage_isSome {front tail name : List Char} (start : AtLineStart front)
    (h : DeclaresPackage tail name) : (findPackage (front ++ tail)).isSome := by
  generalize hcs : front ++ tail = cs
  fun_induction findPackage cs generalizing front with
  | case1 => rfl
  | case2 cs none last =>
    obtain ⟨_, _, -, -, skipped⟩ := exists_rest none hcs.symm start h
    cases last.symm.trans skipped
  | case3 cs none feed rest next ih =>
    obtain ⟨_, g, -, hg, skipped⟩ := exists_rest none hcs.symm start h
    obtain ⟨-, hrest⟩ := List.cons.inj (next.symm.trans skipped)
    exact ih hg hrest.symm

/-- Nothing is found where no line reads as a package declaration. -/
theorem findPackage_eq_none_iff {cs : List Char} : findPackage cs = none ↔
    ∀ front tail, cs = front ++ tail → AtLineStart front → ∀ name, ¬ DeclaresPackage tail name := by
  constructor
  · rintro none front tail rfl start name h
    have found := findPackage_isSome start h
    rw [none] at found
    cases found
  · intro undeclared
    cases found : findPackage cs with
    | none => rfl
    | some name =>
      obtain ⟨front, tail, hcs, start, h, -⟩ := findPackage_eq_some_iff.1 found
      exact absurd h (undeclared front tail hcs start name)

/-! ## Offsets -/

/-- The offset is the beginning of a line, and from there on the text reads as a declaration of the
package. -/
structure DeclaresAt (cs : List Char) (i : Nat) (name : List Char) : Prop where
  lineStart : i = 0 ∨ ∃ j, i = j + 1 ∧ cs[j]? = some '\n'
  reads : DeclaresPackage (cs.drop i) name

theorem declaresAt_iff {cs name : List Char} {i : Nat} : DeclaresAt cs i name ↔
    ∃ front tail, cs = front ++ tail ∧ front.length = i ∧ AtLineStart front ∧
      DeclaresPackage tail name := by
  constructor
  · rintro ⟨start, reads⟩
    refine ⟨cs.take i, cs.drop i, (List.take_append_drop i cs).symm, ?_, ?_, reads⟩
    · rcases start with rfl | ⟨j, rfl, feed⟩
      · rfl
      · obtain ⟨within, -⟩ := List.getElem?_eq_some_iff.1 feed
        exact List.length_take_of_le within
    · rcases start with rfl | ⟨j, rfl, feed⟩
      · exact nofun
      · intro c hc
        rw [List.getLast?_take, if_neg (Nat.succ_ne_zero j), Nat.add_sub_cancel, feed] at hc
        exact (Option.some.inj hc).symm
  · rintro ⟨front, tail, rfl, rfl, start, reads⟩
    refine ⟨?_, by rwa [List.drop_left]⟩
    rcases List.eq_nil_or_concat' front with rfl | ⟨front', c, rfl⟩
    · exact .inl rfl
    · refine .inr ⟨front'.length, by simp, ?_⟩
      rw [start c (by simp)]
      simp

theorem findPackage_eq_some_iff_smallest {cs name : List Char} : findPackage cs = some name ↔
    ∃ i, DeclaresAt cs i name ∧ ∀ j < i, ∀ other, ¬ DeclaresAt cs j other := by
  rw [findPackage_eq_some_iff]
  constructor
  · rintro ⟨front, tail, hcs, start, reads, first⟩
    refine ⟨front.length, declaresAt_iff.2 ⟨front, tail, hcs, rfl, start, reads⟩, ?_⟩
    intro j less other earlier
    obtain ⟨front', tail', hcs', rfl, start', reads'⟩ := declaresAt_iff.1 earlier
    exact first front' tail' hcs' start' less other reads'
  · rintro ⟨i, declares, smallest⟩
    obtain ⟨front, tail, hcs, rfl, start, reads⟩ := declaresAt_iff.1 declares
    refine ⟨front, tail, hcs, start, reads, fun front' tail' hcs' start' less other reads' => ?_⟩
    exact smallest _ less other (declaresAt_iff.2 ⟨front', tail', hcs', rfl, start', reads'⟩)

theorem findPackage_eq_none_iff_nowhere {cs : List Char} : findPackage cs = none ↔
    ∀ i name, ¬ DeclaresAt cs i name := by
  rw [findPackage_eq_none_iff]
  constructor
  · intro undeclared i name declares
    obtain ⟨front, tail, hcs, -, start, reads⟩ := declaresAt_iff.1 declares
    exact undeclared front tail hcs start name reads
  · intro nowhere front tail hcs start name reads
    exact nowhere _ name (declaresAt_iff.2 ⟨front, tail, hcs, rfl, start, reads⟩)

/-- The namespace of a text is the name at the smallest offset at which a package is declared, and the
default namespace if there is none. -/
theorem namespaceOf_eq_iff {source name : String} : namespaceOf source = name ↔
    (∃ i declared, DeclaresAt source.toList i declared ∧
      (∀ j < i, ∀ other, ¬ DeclaresAt source.toList j other) ∧ name = String.ofList declared) ∨
    (∀ i declared, ¬ DeclaresAt source.toList i declared) ∧ name = "default" := by
  unfold namespaceOf
  cases found : findPackage source.toList with
  | none =>
    have nowhere := findPackage_eq_none_iff_nowhere.1 found
    constructor
    · rintro rfl
      exact .inr ⟨nowhere, rfl⟩
    · rintro (⟨i, declared, declares, -⟩ | ⟨-, rfl⟩)
      · exact absurd declares (nowhere i declared)
      · rfl
  | some first =>
    obtain ⟨i, declares, smallest⟩ := findPackage_eq_some_iff_smallest.1 found
    constructor
    · rintro rfl
      exact .inl ⟨i, first, declares, smallest, rfl⟩
    · rintro (⟨j, other, declares', smallest', rfl⟩ | ⟨nowhere, -⟩)
      · have found' := findPackage_eq_some_iff_smallest.2 ⟨j, declares', smallest'⟩
        rw [Option.some.inj (found.symm.trans found')]
      · exact absurd declares (nowhere i first)

/-- The blanks of a declaration may go over several lines, and only a line feed begins a line. -/
example : namespaceOf "package a; x\u2028package b;\n \n\u2003package\u0085\n c.d\n;\u001f\nclass A {}" =
    "c.d" := by
  decide +kernel

end CodeOutline.Java
