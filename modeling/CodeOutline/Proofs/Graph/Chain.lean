import CodeOutline.Graph.Name
import Mathlib.Data.List.Chain
import Mathlib.Data.List.Nodup
import Mathlib.Data.List.TakeWhile
import Mathlib.Order.Basic

/-!
# Chains of names

The chain of a dotted name: all its prefixes that end before a dot, shortest first, and the name
itself. The parent of a name is the last prefix but one, so going up by `parentName?` meets the chain
from its end, and a chain of well-formed names is made of well-formed names.
-/

namespace CodeOutline.Graph

open CodeOutline.Text

/-- The prefixes that end before a dot or at the end, shortest first. -/
def prefixChars : List Char → List (List Char)
  | [] => [[]]
  | c :: rest => (if c = '.' then [[]] else []) ++ (prefixChars rest).map (c :: ·)

/-- The dotted prefixes of a name, shortest first; the name itself is the last of them. -/
def dottedPrefixes (name : String) : List String :=
  (prefixChars name.toList).map String.ofList

/-! ## Parents -/

theorem parentChars?_append {p last : List Char} (h : '.' ∉ last) :
    parentChars? (p ++ '.' :: last) = some p := by
  have skipped : (last.reverse ++ '.' :: p.reverse).dropWhile (· != '.') = '.' :: p.reverse := by
    rw [List.dropWhile_append_of_pos fun c hc => ?_]
    · simp
    · have : c ≠ '.' := fun e => h (e ▸ List.mem_reverse.1 hc)
      simpa using this
  unfold parentChars?
  rw [List.reverse_append, List.reverse_cons, List.append_assoc, List.singleton_append, skipped]
  simp

/-- A name with a dot in it, cut at the last one. -/
theorem exists_last_segment {name : List Char} (h : '.' ∈ name) :
    ∃ p last, name = p ++ '.' :: last ∧ '.' ∉ last := by
  obtain ⟨front, back, e, hfront⟩ := List.eq_append_cons_of_mem (List.mem_reverse.2 h)
  refine ⟨back.reverse, front.reverse, ?_, by simpa using hfront⟩
  rw [← List.reverse_reverse name, e]
  simp

theorem parentChars?_eq_none {name : List Char} : parentChars? name = none ↔ '.' ∉ name := by
  constructor
  · intro h hmem
    obtain ⟨p, last, rfl, hlast⟩ := exists_last_segment hmem
    rw [parentChars?_append hlast] at h
    cases h
  · intro h
    have : name.reverse.dropWhile (· != '.') = [] := by
      refine List.dropWhile_eq_nil_iff.2 fun c hc => ?_
      have : c ≠ '.' := fun e => h (e ▸ List.mem_reverse.1 hc)
      simpa using this
    rw [parentChars?, this]

/-- The parent is what stands before the last dot. -/
theorem parentChars?_eq_some {name p : List Char} :
    parentChars? name = some p ↔ ∃ last, name = p ++ '.' :: last ∧ '.' ∉ last := by
  constructor
  · intro h
    have hmem : '.' ∈ name := by
      by_contra hno
      rw [parentChars?_eq_none.2 hno] at h
      cases h
    obtain ⟨q, last, rfl, hlast⟩ := exists_last_segment hmem
    rw [parentChars?_append hlast] at h
    cases h
    exact ⟨last, rfl, hlast⟩
  · rintro ⟨last, rfl, hlast⟩
    exact parentChars?_append hlast

/-! ## Prefixes -/

theorem prefixChars_append (p q : List Char) :
    prefixChars (p ++ '.' :: q) = prefixChars p ++ (prefixChars q).map (p ++ '.' :: ·) := by
  induction p with
  | nil => simp [prefixChars]
  | cons c p ih => simp [prefixChars, ih, Function.comp_def]

theorem prefixChars_segment {name : List Char} (h : '.' ∉ name) : prefixChars name = [name] := by
  induction name with
  | nil => rfl
  | cons c rest ih =>
    obtain ⟨hc, hrest⟩ := not_or.1 (mt List.mem_cons.2 h)
    simp [prefixChars, ih hrest, Ne.symm hc]

theorem dottedPrefixes_eq (name : String) :
    dottedPrefixes name = (parentName? name).elim [] dottedPrefixes ++ [name] := by
  unfold dottedPrefixes parentName?
  cases hp : parentChars? name.toList with
  | none => simp [prefixChars_segment (parentChars?_eq_none.1 hp)]
  | some p =>
    obtain ⟨last, e, hlast⟩ := parentChars?_eq_some.1 hp
    rw [e, prefixChars_append, prefixChars_segment hlast]
    simp [← e]

theorem dottedPrefixes_of_parent {name parent : String} (h : parentName? name = some parent) :
    dottedPrefixes name = dottedPrefixes parent ++ [name] := by
  rw [dottedPrefixes_eq, h, Option.elim_some]

theorem dottedPrefixes_of_root {name : String} (h : parentName? name = none) :
    dottedPrefixes name = [name] := by
  rw [dottedPrefixes_eq, h, Option.elim_none, List.nil_append]

theorem mem_dottedPrefixes_self (name : String) : name ∈ dottedPrefixes name := by
  rw [dottedPrefixes_eq]
  exact List.mem_append_right _ (List.mem_singleton_self _)

/-- Induction up the chain of a name. -/
theorem chain_induction {P : String → Prop} (root : ∀ name, parentName? name = none → P name)
    (child : ∀ name parent, parentName? name = some parent → P parent → P name) (name : String) :
    P name := by
  cases h : parentName? name with
  | none => exact root name h
  | some parent => exact child name parent h (chain_induction root child parent)
termination_by name.length
decreasing_by exact length_parentName? h

/-- A prefix in the chain of a prefix is in the chain. -/
theorem dottedPrefixes_trans {a b c : String} (h : a ∈ dottedPrefixes b) (h' : b ∈ dottedPrefixes c) :
    a ∈ dottedPrefixes c := by
  induction c using chain_induction with
  | root c hc =>
    rw [dottedPrefixes_of_root hc, List.mem_singleton] at h'
    exact h' ▸ h
  | child c parent hc ih =>
    rw [dottedPrefixes_of_parent hc, List.mem_append, List.mem_singleton] at h'
    rcases h' with h' | rfl
    · rw [dottedPrefixes_of_parent hc]
      exact List.mem_append_left _ (ih h')
    · exact h

theorem length_le_of_mem_dottedPrefixes {a b : String} (h : a ∈ dottedPrefixes b) :
    a.length ≤ b.length := by
  induction b using chain_induction with
  | root b hb =>
    rw [dottedPrefixes_of_root hb, List.mem_singleton] at h
    rw [h]
  | child b parent hb ih =>
    rw [dottedPrefixes_of_parent hb, List.mem_append, List.mem_singleton] at h
    rcases h with h | rfl
    · exact (ih h).trans (length_parentName? hb).le
    · exact le_refl _

theorem nodup_dottedPrefixes (name : String) : (dottedPrefixes name).Nodup := by
  induction name using chain_induction with
  | root name h =>
    rw [dottedPrefixes_of_root h]
    exact List.nodup_singleton _
  | child name parent h ih =>
    rw [dottedPrefixes_of_parent h, List.nodup_append]
    refine ⟨ih, List.nodup_singleton _, fun a ha b hb e => ?_⟩
    have := length_le_of_mem_dottedPrefixes ha
    rw [e, List.mem_singleton.1 hb] at this
    exact absurd (length_parentName? h) (not_lt.2 this)

/-- Each name of a chain is the parent of the next one. -/
theorem isChain_dottedPrefixes (name : String) :
    (dottedPrefixes name).IsChain fun above below => parentName? below = some above := by
  induction name using chain_induction with
  | root name h =>
    rw [dottedPrefixes_of_root h]
    exact .singleton _
  | child name parent h ih =>
    rw [dottedPrefixes_of_parent h, List.isChain_append]
    refine ⟨ih, .singleton _, fun above ha below hb => ?_⟩
    rw [dottedPrefixes_eq, List.getLast?_concat, Option.mem_some_iff] at ha
    rw [List.head?_singleton, Option.mem_some_iff] at hb
    rw [← ha, ← hb, h]

/-- Two names that stand next to each other in a chain are parent and child. -/
theorem parentName?_of_chain {name above below : String} {front rest : List String}
    (h : dottedPrefixes name = front ++ above :: below :: rest) : parentName? below = some above := by
  have := isChain_dottedPrefixes name
  rw [h, List.isChain_append] at this
  exact (List.isChain_cons_cons.1 this.2.1).1

/-- A chain up to one of its names is the chain of that name. -/
theorem dottedPrefixes_of_append {name above : String} {front rest : List String}
    (h : dottedPrefixes name = front ++ above :: rest) : dottedPrefixes above = front ++ [above] := by
  induction name using chain_induction generalizing rest with
  | root name hroot =>
    rw [dottedPrefixes_of_root hroot, List.singleton_eq_append_iff] at h
    obtain ⟨rfl, e⟩ | ⟨-, e⟩ := h
    · cases e
      rw [dottedPrefixes_of_root hroot, List.nil_append]
    · cases e
  | child name parent hp ih =>
    rw [dottedPrefixes_of_parent hp] at h
    rcases List.eq_nil_or_concat' rest with rfl | ⟨rest, last, rfl⟩
    · obtain ⟨e, rfl⟩ := List.append_singleton_inj.1 h
      rw [dottedPrefixes_of_parent hp, e]
    · rw [← List.cons_append, ← List.append_assoc] at h
      exact ih (List.append_singleton_inj.1 h).1

/-! ## Well-formed names -/

theorem isWellFormedName_parent {name parent : String} (hp : parentName? name = some parent)
    (h : isWellFormedName name) : isWellFormedName parent := by
  obtain ⟨p, hchars, rfl⟩ := Option.map_eq_some_iff.1 hp
  obtain ⟨last, e, -⟩ := parentChars?_eq_some.1 hchars
  unfold isWellFormedName pieces at h ⊢
  rw [e, piecesFrom_append, List.map_append, List.all_append, Bool.and_eq_true] at h
  simpa using h.1

theorem isWellFormedName_of_mem {a name : String} (h : isWellFormedName name)
    (ha : a ∈ dottedPrefixes name) : isWellFormedName a := by
  induction name using chain_induction with
  | root name hroot =>
    rw [dottedPrefixes_of_root hroot, List.mem_singleton] at ha
    rwa [ha]
  | child name parent hp ih =>
    rw [dottedPrefixes_of_parent hp, List.mem_append, List.mem_singleton] at ha
    rcases ha with ha | rfl
    · exact ih (isWellFormedName_parent hp h) ha
    · exact h

end CodeOutline.Graph
