import CodeOutline.Proofs.Graph.Needed
import CodeOutline.Proofs.Text.Pieces

/-!
# Lineages of namespaces

A well-formed name is one or more segments with dots between them, and its parent is the name without
the last of them. In a forest each namespace hangs below the one of that name, so the namespaces above
it form a line that begins with a single segment: its lineage. The numbers ascend along a lineage, and
its names are the chain of the last one.
-/

namespace CodeOutline.Graph

open CodeOutline.Text

/-! ## Segments -/

/-- The name is made of these segments. -/
structure IsSegmented (name : String) (segments : List String) : Prop where
  nonempty : segments ≠ []
  joined : name = joinWith "." segments
  plain : ∀ segment ∈ segments, segment ≠ "" ∧ ∀ c ∈ segment.toList, c ≠ '.' ∧ isBlank c = false

/-- A well-formed name is made of its pieces. -/
theorem exists_segments {name : String} (h : isWellFormedName name) :
    ∃ segments, IsSegmented name segments := by
  refine ⟨pieces '.' name, ?_, (joinWith_pieces rfl name).symm, fun segment hmem => ?_⟩
  · exact fun e => piecesFrom_ne_nil '.' [] name.toList (List.map_eq_nil_iff.1 e)
  · have good := List.all_eq_true.1 h segment hmem
    simp only [Bool.and_eq_true, Bool.not_eq_true', List.any_eq_false, String.isEmpty_eq_false_iff]
      at good
    refine ⟨good.1, fun c hc => ⟨?_, by simpa using good.2 c hc⟩⟩
    rintro rfl
    exact notMem_of_mem_pieces hmem hc

theorem IsSegmented.isWellFormedName {name : String} {segments : List String}
    (h : IsSegmented name segments) : Graph.isWellFormedName name := by
  have plain : ∀ segment ∈ segments, '.' ∉ segment.toList := fun segment hmem hdot =>
    ((h.plain segment hmem).2 '.' hdot).1 rfl
  rw [Graph.isWellFormedName, h.joined, pieces_joinWith rfl h.nonempty plain, List.all_eq_true]
  intro segment hmem
  obtain ⟨nonempty, good⟩ := h.plain segment hmem
  simp only [Bool.and_eq_true, Bool.not_eq_true', String.isEmpty_eq_false_iff, List.any_eq_false]
  refine ⟨nonempty, fun c hc => ?_⟩
  rw [(good c hc).2]
  exact Bool.false_ne_true

/-- The well-formed names are those that are made of segments. -/
theorem isWellFormedName_iff {name : String} :
    isWellFormedName name ↔ ∃ segments, IsSegmented name segments :=
  ⟨exists_segments, fun ⟨_, h⟩ => h.isWellFormedName⟩

/-- The parent of a name has all its segments but the last one; a single segment has none. -/
theorem IsSegmented.parentName? {name : String} {segments : List String}
    (h : IsSegmented name segments) :
    Graph.parentName? name =
      if segments.length = 1 then none else some (joinWith "." segments.dropLast) := by
  obtain ⟨front, last, rfl⟩ := List.eq_nil_or_concat' segments |>.resolve_left h.nonempty
  have whole : '.' ∉ last.toList := fun hdot =>
    ((h.plain last (by simp)).2 '.' hdot).1 rfl
  unfold Graph.parentName?
  by_cases hfront : front = []
  · rw [h.joined, hfront, List.nil_append, joinWith, String.intercalate_singleton,
      parentChars?_eq_none.2 whole]
    rfl
  · have chars : name.toList = (joinWith "." front).toList ++ '.' :: last.toList := by
      rw [h.joined, joinWith_concat "." hfront]
      simp
    have several : (front ++ [last]).length ≠ 1 := by
      simpa using hfront
    rw [chars, parentChars?_append whole, if_neg several, List.dropLast_concat]
    simp

/-- The chain of a name: its first segment, its first two, and so on up to all of them. -/
theorem IsSegmented.dottedPrefixes {name : String} {segments : List String}
    (h : IsSegmented name segments) :
    Graph.dottedPrefixes name = segments.inits.tail.map (joinWith ".") := by
  induction segments using List.reverseRecOn generalizing name with
  | nil => exact absurd rfl h.nonempty
  | append_singleton front last ih =>
    have hp := h.parentName?
    by_cases hfront : front = []
    · subst hfront
      rw [dottedPrefixes_of_root hp, h.joined]
      simp
    · have several : (front ++ [last]).length ≠ 1 := by
        simpa using hfront
      rw [if_neg several, List.dropLast_concat] at hp
      have above : IsSegmented (joinWith "." front) front :=
        ⟨hfront, rfl, fun segment hmem => h.plain segment (List.mem_append_left _ hmem)⟩
      have longer : (front ++ [last]).inits.tail = front.inits.tail ++ [front ++ [last]] := by
        rw [List.inits_append, List.tail_append_of_ne_nil (by cases front <;> simp)]
        simp
      rw [dottedPrefixes_of_parent hp, ih above, longer, List.map_append, List.map_singleton, h.joined]

/-! ## Lineages -/

namespace Store

/-- The namespaces from the one without a parent down to `n`, each the parent of the next. -/
structure Lineage (s : Store) (n : Namespace) (line : List Namespace) : Prop where
  names : line.map (·.name) = dottedPrefixes n.name
  mem : ∀ m ∈ line, m ∈ s.namespaces.rows ∧ m.repository = n.repository
  root : ∀ m ∈ line.head?, m.parent = none
  below : line.IsChain fun m m' => m'.parent = some m.id ∧ m.id < m'.id
  ends : line.getLast? = some n

variable {s : Store} {n : Namespace} {line : List Namespace}

/-- A lineage goes on with the namespaces below its end. -/
theorem Lineage.snoc {m : Namespace} (h : s.Lineage m line) (hn : n ∈ s.namespaces.rows)
    (own : m.repository = n.repository) (named : parentName? n.name = some m.name)
    (linked : n.parent = some m.id) (older : m.id < n.id) : s.Lineage n (line ++ [n]) where
  names := by rw [List.map_append, h.names, List.map_singleton, dottedPrefixes_of_parent named]
  mem := by
    intro x hx
    rcases List.mem_append.1 hx with hx | hx
    · exact ⟨(h.mem x hx).1, (h.mem x hx).2.trans own⟩
    · rw [List.mem_singleton.1 hx]
      exact ⟨hn, rfl⟩
  root := by
    obtain ⟨front, rfl⟩ := List.getLast?_eq_some_iff.1 h.ends
    intro x hx
    refine h.root x ?_
    rwa [List.head?_append_of_ne_nil _ (by simp)] at hx
  below := by
    refine List.isChain_append.2 ⟨h.below, .singleton _, fun x hx y hy => ?_⟩
    rw [h.ends, Option.mem_some_iff] at hx
    rw [List.head?_singleton, Option.mem_some_iff] at hy
    rw [← hx, ← hy]
    exact ⟨linked, older⟩
  ends := List.getLast?_concat ..

/-- In a forest every namespace has a lineage. -/
theorem Forest.exists_lineage (h : s.Forest) (hn : n ∈ s.namespaces.rows) :
    ∃ line, s.Lineage n line := by
  induction hname : n.name using chain_induction generalizing n with
  | root name hroot =>
    have linked := h.linked n hn
    simp only [Linked, hname, hroot] at linked
    refine ⟨[n], ⟨?_, ?_, ?_, .singleton _, rfl⟩⟩
    · rw [List.map_singleton, hname, dottedPrefixes_of_root hroot]
    · intro m hm
      rw [List.mem_singleton.1 hm]
      exact ⟨hn, rfl⟩
    · intro m hm
      rw [List.head?_singleton, Option.mem_some_iff] at hm
      rw [← hm, linked]
  | child name parent hparent ih =>
    have linked := h.linked n hn
    simp only [Linked, hname, hparent] at linked
    obtain ⟨m, hm, own, named, hid⟩ := linked
    obtain ⟨line, lineage⟩ := ih hm named
    refine ⟨line ++ [n], lineage.snoc hn own ?_ hid (h.older n hn m.id hid)⟩
    rw [hname, hparent, named]

/-- Each namespace has the parent that its segments ask for, and only single segments have none. -/
theorem Forest.parent_of_segments (h : s.Forest) (hn : n ∈ s.namespaces.rows)
    {segments : List String} (made : IsSegmented n.name segments) :
    (n.parent = none ↔ segments.length = 1) ∧
      (segments.length ≠ 1 → ∃ m ∈ s.namespaces.rows, n.parent = some m.id ∧
        m.repository = n.repository ∧ m.name = joinWith "." segments.dropLast ∧ m.id < n.id) := by
  have linked := h.linked n hn
  unfold Linked at linked
  rw [made.parentName?] at linked
  by_cases single : segments.length = 1
  · simp only [single, if_true] at linked
    exact ⟨⟨fun _ => single, fun _ => linked⟩, fun several => absurd single several⟩
  · simp only [single, if_false] at linked
    obtain ⟨m, hm, own, named, hid⟩ := linked
    refine ⟨⟨fun hnone => ?_, fun e => absurd e single⟩,
      fun _ => ⟨m, hm, hid, own, named, h.older n hn m.id hid⟩⟩
    rw [hid] at hnone
    cases hnone

/-- Where no namespace of a repository is empty, each is in the lineage of one that a file lies in. -/
theorem Forest.exists_file_below (hs : s.Consistent) (h : s.Forest) {key : String}
    (hnone : s.emptyNamespaces key = []) (hn : n ∈ s.namespaces.rows) (hkey : n.repository = key) :
    ∃ f ∈ s.files.rows, ∃ m ∈ s.namespaces.rows, m.id = f.namespaceId ∧
      ∃ line, s.Lineage m line ∧ n ∈ line := by
  obtain ⟨c, hc, hmem⟩ := h.exists_content_below hs hnone hn hkey
  obtain ⟨f, hf, rfl⟩ := List.mem_map.1 hc
  obtain ⟨hf, hfile⟩ := List.mem_filter.1 hf
  obtain ⟨m, hm, hid, own⟩ := h.ownFiles f hf
  obtain ⟨line, lineage⟩ := h.exists_lineage hm
  refine ⟨f, hf, m, hm, hid, line, lineage, ?_⟩
  rw [contentOf, ← hid, hs.nameOf_eq hm, ← lineage.names] at hmem
  obtain ⟨x, hx, named⟩ := List.mem_map.1 hmem
  obtain ⟨there, same⟩ := lineage.mem x hx
  have shared : x.repository = n.repository :=
    same.trans (own.trans ((of_decide_eq_true hfile).trans hkey.symm))
  rwa [← hs.namespace_unique there hn shared named]

end Store

end CodeOutline.Graph
