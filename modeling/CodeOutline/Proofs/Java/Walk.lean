import CodeOutline.Java.Facts
import Mathlib.Data.List.Flatten
import Mathlib.Data.List.Forall2
import Mathlib.Data.List.Infix
import Mathlib.Order.Basic

/-!
# The walk over a tree

A place below a node is told by a path, the numbers of the children on the way to it. A traversal that
reports a node before what is below it, and that goes below some nodes only, comes to its places in the
order of their paths, and to each of them once (`Node.visits_ascending`, `Node.mem_visits`).

The walk with a stack is such a traversal, and so is the search for the members of a type. The way from
a type down to one of its members is the body of the type and then parts of an enum's body, so that no
declaration is a member of two types (`declaredTypes_traversal`).
-/

namespace CodeOutline.Java

/-- The way down to a node: which child to take, again and again. Of two paths the smaller one is that
of the node that begins first, and of two nodes that begin together that of the outer one. -/
abbrev Path := List Nat

/-! ## Places -/

/-- A place tells its own number. -/
theorem length_before_of_getElem? {before nodes : List Node} {i : Nat} {t : Place}
    (h : (placesOf before nodes)[i]? = some t) : t.before.length = before.length + i := by
  induction nodes generalizing before i with
  | nil => cases h
  | cons node rest ih =>
    cases i with
    | zero =>
      cases h
      rfl
    | succ i => rw [ih h, List.length_cons, Nat.add_right_comm, Nat.add_assoc]

theorem mem_placesOf {nodes : List Node} {t : Place} :
    t ∈ placesOf [] nodes ↔ (placesOf [] nodes)[t.before.length]? = some t := by
  refine ⟨fun h => ?_, List.mem_of_getElem?⟩
  obtain ⟨i, hi⟩ := List.mem_iff_getElem?.1 h
  rwa [length_before_of_getElem? hi, List.length_nil, Nat.zero_add]

/-- The children stand in the order of their numbers. -/
theorem pairwise_placesOf (nodes : List Node) :
    (placesOf [] nodes).Pairwise fun s t => s.before.length < t.before.length := by
  rw [List.pairwise_iff_getElem]
  intro i j hi hj less
  rw [length_before_of_getElem? (List.getElem?_eq_getElem hi),
    length_before_of_getElem? (List.getElem?_eq_getElem hj)]
  exact Nat.add_lt_add_left less _

theorem size_le_of_mem_placesOf {nodes before : List Node} {t : Place}
    (h : t ∈ placesOf before nodes) : t.node.size ≤ Node.sizeOfList nodes := by
  induction nodes generalizing before with
  | nil => cases h
  | cons node rest ih =>
    rw [placesOf, List.mem_cons] at h
    rw [Node.sizeOfList]
    rcases h with rfl | h
    · exact Nat.le_add_right _ _
    · exact (ih h).trans (Nat.le_add_left _ _)

namespace Place

/-- The child with a number. -/
def child? (t : Place) (i : Nat) : Option Place :=
  (placesOf [] t.node.children)[i]?

theorem size_of_child? {t u : Place} {i : Nat} (h : t.child? i = some u) :
    u.node.size < t.node.size :=
  (size_le_of_mem_placesOf (List.mem_of_getElem? h)).trans_lt t.node.sizeOfList_children

/-- The first child that is a body. -/
def body? (t : Place) : Option Place :=
  (placesOf [] t.node.children).find? (·.node.isKind .body)

theorem body?_eq_some {t u : Place} (h : t.body? = some u) :
    t.child? u.before.length = some u ∧ u.node.isKind .body := by
  have kind := List.find?_some h
  exact ⟨mem_placesOf.1 (List.mem_of_find?_eq_some h), kind⟩

theorem map_node_body? (t : Place) : t.body?.map (·.node) = t.node.child? .body := by
  have places : ((placesOf [] t.node.children).map (·.node)).find? (·.isKind .body) =
      t.body?.map (·.node) := List.find?_map
  rw [← places, map_node_placesOf, Node.child?]

end Place

/-- The place at a path that begins at the root. -/
def Node.at? (root : Node) (p : Path) : Option Place :=
  p.foldlM Place.child? ⟨[], root⟩

theorem Node.at?_concat {root : Node} {p : Path} {i : Nat} {u : Place} :
    root.at? (p ++ [i]) = some u ↔ ∃ t, root.at? p = some t ∧ t.child? i = some u := by
  rw [Node.at?, List.foldlM_append, Option.bind_eq_bind, Option.bind_eq_some_iff]
  simp only [List.foldlM_cons, List.foldlM_nil, Option.bind_eq_bind, Option.pure_def,
    Option.bind_fun_some]
  rfl

/-! ## Traversals -/

namespace Node

section Traversals

variable {β : Type} (enter : Node → Bool) (report : Place → List β)

mutual

/-- A recursive traversal that reports a node before what is below it. -/
def preorder (before : List Node) : Node → List β
  | .comment c => report ⟨before, .comment c⟩
  | .phrase kind text endRow children =>
    report ⟨before, .phrase kind text endRow children⟩ ++
      if enter (.phrase kind text endRow children) then preorderOfList [] children else []

/-- The traversal of the nodes of a list. -/
def preorderOfList (before : List Node) : List Node → List β
  | [] => []
  | node :: rest => node.preorder before ++ preorderOfList (node :: before) rest

end

theorem preorder_eq (before : List Node) (node : Node) :
    node.preorder enter report before = report ⟨before, node⟩ ++
      if enter node then preorderOfList enter report [] node.children else [] := by
  cases node with
  | comment c => simp only [preorder, children, preorderOfList, ite_self, List.append_nil]
  | phrase => rw [preorder, children]

theorem preorderOfList_append (before nodes more : List Node) :
    preorderOfList enter report before (nodes ++ more) =
      preorderOfList enter report before nodes ++
        preorderOfList enter report (nodes.reverse ++ before) more := by
  induction nodes generalizing before with
  | nil => rfl
  | cons node rest ih =>
    rw [List.cons_append, preorderOfList, preorderOfList, ih, List.append_assoc, List.reverse_cons,
      List.append_assoc, List.singleton_append]

theorem preorderOfList_eq (before nodes : List Node) :
    preorderOfList enter report before nodes =
      (placesOf before nodes).flatMap fun t => t.node.preorder enter report t.before := by
  induction nodes generalizing before with
  | nil => rfl
  | cons node rest ih => rw [preorderOfList, placesOf, List.flatMap_cons, ih]

/-- The places that the traversal comes to, with the paths to them, where `p` is the path to the
beginning. -/
def visits (p : Path) (start : Place) : List (Path × Place) :=
  (p, start) :: if enter start.node then
    (placesOf [] start.node.children).attach.flatMap fun t => visits (p ++ [t.1.before.length]) t.1
  else []
termination_by start.node.size
decreasing_by exact (size_le_of_mem_placesOf t.2).trans_lt start.node.sizeOfList_children

/-- The places below the beginning, which is entered. -/
def visitsBelow (p : Path) (start : Place) : List (Path × Place) :=
  (placesOf [] start.node.children).flatMap fun t => visits enter (p ++ [t.before.length]) t

theorem visits_eq (p : Path) (start : Place) :
    visits enter p start =
      (p, start) :: if enter start.node then visitsBelow enter p start else [] := by
  rw [visits, visitsBelow]
  simp only [List.flatMap_subtype, List.unattach_attach]

theorem mem_visitsBelow {p : Path} {start : Place} {v : Path × Place} :
    v ∈ visitsBelow enter p start ↔
      ∃ i t, start.child? i = some t ∧ v ∈ visits enter (p ++ [i]) t := by
  rw [visitsBelow, List.mem_flatMap]
  constructor
  · rintro ⟨t, ht, hv⟩
    exact ⟨_, t, mem_placesOf.1 ht, hv⟩
  · rintro ⟨i, t, ht, hv⟩
    obtain rfl : t.before.length = i := by
      rw [length_before_of_getElem? ht, List.length_nil, Nat.zero_add]
    exact ⟨t, List.mem_of_getElem? ht, hv⟩

theorem preorder_eq_visits (p : Path) (start : Place) :
    start.node.preorder enter report start.before =
      (visits enter p start).flatMap (report ·.2) := by
  rw [preorder_eq, visits_eq, List.flatMap_cons]
  split
  · rw [preorderOfList_eq, visitsBelow, List.flatMap_assoc]
    congr 1
    refine List.flatMap_congr fun t ht => ?_
    have : t.node.size < start.node.size :=
      (size_le_of_mem_placesOf ht).trans_lt start.node.sizeOfList_children
    exact preorder_eq_visits _ t
  · rfl
termination_by start.node.size

/-- What is reported of the children of a node comes from the places below it. -/
theorem preorderOfList_eq_visitsBelow (p : Path) (start : Place) :
    preorderOfList enter report [] start.node.children =
      (visitsBelow enter p start).flatMap (report ·.2) := by
  rw [preorderOfList_eq, visitsBelow, List.flatMap_assoc]
  exact List.flatMap_congr fun t _ => preorder_eq_visits enter report _ t

end Traversals

variable {enter : Node → Bool}

/-- A traversal begins at its beginning. -/
theorem self_mem_visits (p : Path) (start : Place) : (p, start) ∈ visits enter p start := by
  rw [visits_eq]
  exact List.mem_cons_self

/-- From a place that is entered it comes to the children. -/
theorem child_mem_visits {p q : Path} {start t u : Place} {i : Nat}
    (h : (q, t) ∈ visits enter p start) (enters : enter t.node) (child : t.child? i = some u) :
    (q ++ [i], u) ∈ visits enter p start := by
  rw [visits_eq, List.mem_cons, List.mem_ite_nil_right, mem_visitsBelow] at h ⊢
  right
  rcases h with here | ⟨enters', j, c, hc, h⟩
  · obtain ⟨rfl, rfl⟩ := Prod.mk.inj here
    exact ⟨enters, i, u, child, self_mem_visits _ _⟩
  · have := Place.size_of_child? hc
    exact ⟨enters', j, c, hc, child_mem_visits h enters child⟩
termination_by start.node.size

/-- What holds at the beginning, and at the children of an entered place where it holds, holds wherever
a traversal comes to. -/
theorem visits_induction {P : Path → Place → Prop} {p : Path} {start : Place} (here : P p start)
    (step : ∀ q t i u, P q t → enter t.node → t.child? i = some u → P (q ++ [i]) u) :
    ∀ v ∈ visits enter p start, P v.1 v.2 := by
  intro v hv
  rw [visits_eq, List.mem_cons, List.mem_ite_nil_right, mem_visitsBelow] at hv
  rcases hv with rfl | ⟨enters, i, t, ht, hv⟩
  · exact here
  · have := Place.size_of_child? ht
    exact visits_induction (step p start i t here enters ht) step v hv
termination_by start.node.size

/-- Paths that a traversal comes to go on from its beginning. -/
theorem prefix_of_mem_visits {p : Path} {start : Place} {v : Path × Place}
    (h : v ∈ visits enter p start) : p <+: v.1 :=
  visits_induction (P := fun q _ => p <+: q) (List.prefix_refl p)
    (fun _ _ _ _ hq _ _ => hq.trans (List.prefix_append _ _)) v h

theorem lt_of_mem_visitsBelow {p : Path} {start : Place} {v : Path × Place}
    (h : v ∈ visitsBelow enter p start) : p < v.1 := by
  obtain ⟨i, t, -, hv⟩ := (mem_visitsBelow enter).1 h
  obtain ⟨r, hr⟩ := prefix_of_mem_visits hv
  rw [← hr, List.append_assoc]
  conv_lhs => rw [← List.append_nil p]
  exact List.append_left_lt (List.nil_lt_cons _ _)

/-- A traversal comes to its places in their order. -/
theorem visitsBelow_ascending (p : Path) (start : Place) :
    ((visitsBelow enter p start).map Prod.fst).Pairwise (· < ·) := by
  rw [visitsBelow, List.map_flatMap, List.pairwise_flatMap]
  refine ⟨fun t ht => ?_, (pairwise_placesOf _).imp fun less q hq q' hq' => ?_⟩
  · rw [visits_eq, List.map_cons, List.pairwise_cons]
    split
    · refine ⟨fun q hq => ?_, ?_⟩
      · obtain ⟨v, hv, rfl⟩ := List.mem_map.1 hq
        exact lt_of_mem_visitsBelow hv
      · have := Place.size_of_child? (mem_placesOf.1 ht)
        exact visitsBelow_ascending _ t
    · exact ⟨nofun, .nil⟩
  · obtain ⟨v, hv, rfl⟩ := List.mem_map.1 hq
    obtain ⟨v', hv', rfl⟩ := List.mem_map.1 hq'
    obtain ⟨r, hr⟩ := prefix_of_mem_visits hv
    obtain ⟨r', hr'⟩ := prefix_of_mem_visits hv'
    rw [← hr, ← hr', List.append_assoc, List.append_assoc]
    exact List.append_left_lt (List.cons_lt_cons_iff.2 (.inl less))
termination_by start.node.size

end Node

/-! ## The stack -/

/-- A type declaration reports what it says. -/
def ownType (t : Place) : List TypeFact :=
  if t.node.isTypeDecl then [typeFact t.before t.node] else []

/-- The stack holds what is still to be traversed. -/
theorem collectTypes_eq (found : List TypeFact) (stack : List Place) :
    collectTypes found stack =
      found ++ stack.flatMap fun t => t.node.preorder (fun _ => true) ownType t.before := by
  fun_induction collectTypes found stack with
  | case1 found => rw [List.flatMap_nil, List.append_nil]
  | case2 found before node rest ih =>
    have reported : (if node.isTypeDecl then found ++ [typeFact before node] else found) =
        found ++ ownType ⟨before, node⟩ := by
      unfold ownType
      split
      · rfl
      · rw [List.append_nil]
    simp only [dite_eq_ite] at ih
    rw [ih, reported, List.flatMap_append, List.flatMap_cons, Node.preorder_eq, if_pos rfl,
      Node.preorderOfList_eq, List.append_assoc, List.append_assoc]

theorem declaredTypes_eq_preorder (root : Node) :
    root.declaredTypes = Node.preorderOfList (fun _ => true) ownType [] root.children := by
  rw [Node.declaredTypes, collectTypes_eq, List.nil_append, Node.preorderOfList_eq]

/-! ## Members -/

mutual

theorem members_eq_preorder (before : List Node) : (node : Node) →
    node.members before =
      node.preorder (·.isKind .enumMembers) (fun t => t.node.declaredMembers t.before) before
  | .comment _ => rfl
  | .phrase kind text endRow children => by
    rw [Node.members, Node.preorder]
    by_cases wrapper : kind = .enumMembers
    · subst wrapper
      rw [if_pos rfl, membersOfList_eq_preorderOfList [] children]
      rfl
    · rw [if_neg wrapper, if_neg (by simpa [Node.isKind] using wrapper), List.append_nil]

theorem membersOfList_eq_preorderOfList (before : List Node) : (nodes : List Node) →
    Node.membersOfList before nodes = Node.preorderOfList (·.isKind .enumMembers)
      (fun t => t.node.declaredMembers t.before) before nodes
  | [] => rfl
  | node :: rest => by
    rw [Node.membersOfList, Node.preorderOfList, members_eq_preorder before node,
      membersOfList_eq_preorderOfList (node :: before) rest]

end

/-! ## What is declared where -/

/-- Of a report to which only some places contribute, the other places may be left out. -/
theorem flatMap_filter {α β : Type} {f g : α → List β} {p : α → Bool} {l : List α}
    (some : ∀ a, p a → f a = g a) (none : ∀ a, ¬ p a → f a = []) :
    l.flatMap f = (l.filter p).flatMap g := by
  induction l with
  | nil => rfl
  | cons a l ih =>
    by_cases h : p a
    · rw [List.filter_cons_of_pos h, List.flatMap_cons, List.flatMap_cons, some a h, ih]
    · rw [List.filter_cons_of_neg h, List.flatMap_cons, none a h, ih, List.nil_append]

/-- The node is of one of the kinds. -/
def Node.IsOneOf (kinds : List Kind) (node : Node) : Prop :=
  ∃ kind ∈ kinds, node.isKind kind

theorem Node.eq_of_isKind {node : Node} {k k' : Kind} (h : node.isKind k) (h' : node.isKind k') :
    k = k' := by
  cases node with
  | comment => cases h
  | phrase => exact (of_decide_eq_true h).symm.trans (of_decide_eq_true h')

theorem Node.isTypeDecl_iff {node : Node} : node.isTypeDecl ↔
    node.IsOneOf [.classDecl, .interfaceDecl, .enumDecl, .recordDecl, .annotationDecl] := by
  cases node with
  | comment => simp [Node.isTypeDecl, Node.IsOneOf, Node.isKind]
  | phrase => simp [Node.isTypeDecl, Node.IsOneOf, Node.isKind]

/-- The name of a declaration is its first child of that kind. -/
theorem declaredName_of_split {kind : Kind} {text : String} {endRow row : Nat} {front back : List Node}
    (h : ∀ m ∈ front, ¬ m.isKind .name) (name : String) :
    (Node.phrase kind text endRow (front ++ .phrase .name name row [] :: back)).declaredName =
      name := by
  have first : (front ++ .phrase .name name row [] :: back).find? (·.isKind .name) =
      some (.phrase .name name row []) := by
    rw [List.find?_append, List.find?_eq_none.2 h, Option.none_or]
    rfl
  rw [Node.declaredName, Node.child?, Node.children, first]
  rfl

/-- The nodes that name the members declared by a node: the variables of a field, and otherwise the
node itself. -/
def Node.namedIn (node : Node) : List Node :=
  if node.isKind .field ∨ node.isKind .constant then node.children.filter (·.isKind .declarator)
  else [node]

/-- The members declared at a place, which all have its annotations and its comment. -/
def Place.members (t : Place) : List MemberFact :=
  t.node.namedIn.map fun named =>
    { name := named.declaredName
      kind := if t.node.isKind .method ∨ t.node.isKind .annotationElement then .method else .field
      annotations := t.node.annotations
      comment := leadingComment t.before }

/-- The kinds of nodes that declare members. -/
def memberKinds : List Kind :=
  [.method, .annotationElement, .field, .constant, .enumConstant]

theorem declaredMembers_eq_members {t : Place} (h : t.node.IsOneOf memberKinds) :
    t.node.declaredMembers t.before = t.members := by
  obtain ⟨before, _ | ⟨kind, text, endRow, children⟩⟩ := t
  · obtain ⟨_, -, no⟩ := h
    cases no
  · obtain ⟨kind', hkind, same⟩ := h
    obtain rfl : kind = kind' := of_decide_eq_true same
    simp only [memberKinds, List.mem_cons, List.not_mem_nil, or_false] at hkind
    rcases hkind with rfl | rfl | rfl | rfl | rfl <;> rfl

theorem declaredMembers_eq_nil {t : Place} (h : ¬ t.node.IsOneOf memberKinds) :
    t.node.declaredMembers t.before = [] := by
  obtain ⟨before, _ | ⟨kind, text, endRow, children⟩⟩ := t
  · rfl
  · have other (listed : kind ∈ memberKinds) : False := h ⟨kind, listed, decide_eq_true rfl⟩
    cases kind with
    | method | annotationElement | field | constant | enumConstant =>
      exact (other (by decide)).elim
    | _ => rfl

namespace Node

variable {root : Node} {p p' q b : Path} {t u : Place}

/-- A type is declared at a path below the root. -/
structure DeclaresType (root : Node) (p : Path) (t : Place) : Prop where
  below : p ≠ []
  place : root.at? p = some t
  kind : t.node.IsOneOf [.classDecl, .interfaceDecl, .enumDecl, .recordDecl, .annotationDecl]

/-- The body of the declaration at `p`, and the declarations that follow the constants of an enum. -/
inductive BodyPart (root : Node) (p : Path) : Path → Prop
  | body {t u : Place} (place : root.at? p = some t) (first : t.body? = some u) :
    BodyPart root p (p ++ [u.before.length])
  | enumMembers {b : Path} {t : Place} {i : Nat} (part : BodyPart root p b)
    (place : root.at? (b ++ [i]) = some t) (wrapper : t.node.isKind .enumMembers) :
    BodyPart root p (b ++ [i])

/-- What is declared at `q` is directly in the body of the type that is declared at `p`. -/
structure Owns (root : Node) (p q : Path) (u : Place) : Prop where
  type : ∃ t, root.DeclaresType p t
  part : ∃ b i, root.BodyPart p b ∧ q = b ++ [i]
  place : root.at? q = some u
  kind : u.node.IsOneOf memberKinds

/-- A fact reports the type that is declared at a place: its own name, annotations and comment, and the
members directly in its body, in their order. -/
structure Reports (root : Node) (p : Path) (t : Place) (fact : TypeFact) : Prop where
  name : fact.name = t.node.declaredName
  annotations : fact.annotations = t.node.annotations
  comment : fact.comment = leadingComment t.before
  members : ∃ owned : List (Path × Place), (owned.map Prod.fst).Pairwise (· < ·) ∧
    (∀ q u, (q, u) ∈ owned ↔ root.Owns p q u) ∧ fact.members = owned.flatMap (·.2.members)

/-- The traversal that enters every node comes to every place below the root. -/
theorem mem_visits_iff : (q, u) ∈ visits (fun _ => true) [] ⟨[], root⟩ ↔ root.at? q = some u := by
  constructor
  · intro h
    exact visits_induction (P := fun q u => root.at? q = some u) rfl
      (fun q t i u ht _ hu => at?_concat.2 ⟨t, ht, hu⟩) _ h
  · induction q using List.reverseRecOn generalizing u with
    | nil =>
      intro h
      cases h
      exact self_mem_visits _ _
    | append_singleton q i ih =>
      intro h
      obtain ⟨t, ht, hu⟩ := at?_concat.1 h
      exact child_mem_visits (ih ht) rfl hu

theorem mem_visitsBelow_iff :
    (q, u) ∈ visitsBelow (fun _ => true) [] ⟨[], root⟩ ↔ q ≠ [] ∧ root.at? q = some u := by
  rw [← mem_visits_iff, visits_eq, if_pos rfl, List.mem_cons]
  constructor
  · intro h
    have below : [] < q := lt_of_mem_visitsBelow h
    refine ⟨?_, .inr h⟩
    rintro rfl
    exact List.not_lt_nil [] below
  · rintro ⟨below, here | h⟩
    · cases here
      exact absurd rfl below
    · exact h

theorem BodyPart.place (h : root.BodyPart p b) : ∃ u, root.at? b = some u ∧
    ((u.node.isKind .body ∧ ∃ i, b = p ++ [i]) ∨
      (u.node.isKind .enumMembers ∧ ∃ b' i, b = b' ++ [i] ∧ root.BodyPart p b')) := by
  cases h with
  | body place first =>
    obtain ⟨child, kind⟩ := Place.body?_eq_some first
    exact ⟨_, at?_concat.2 ⟨_, place, child⟩, .inl ⟨kind, _, rfl⟩⟩
  | enumMembers part place wrapper => exact ⟨_, place, .inr ⟨wrapper, _, _, rfl, part⟩⟩

/-- A body is the body of one type. -/
theorem BodyPart.unique (h : root.BodyPart p b) (h' : root.BodyPart p' b) : p = p' := by
  induction h with
  | body place first =>
    obtain ⟨u', hu', owner⟩ := h'.place
    obtain ⟨child, kind⟩ := Place.body?_eq_some first
    cases (at?_concat.2 ⟨_, place, child⟩).symm.trans hu'
    rcases owner with ⟨-, i, same⟩ | ⟨wrapper, -⟩
    · exact (List.append_inj' same rfl).1
    · cases eq_of_isKind kind wrapper
  | enumMembers part place wrapper ih =>
    obtain ⟨u', hu', owner⟩ := h'.place
    cases place.symm.trans hu'
    rcases owner with ⟨kind, -⟩ | ⟨-, b', i, same, part'⟩
    · cases eq_of_isKind kind wrapper
    · obtain ⟨rfl, -⟩ := List.append_inj' same rfl
      exact ih part'

/-- A member belongs to one type. -/
theorem Owns.unique {u' : Place} (h : root.Owns p q u) (h' : root.Owns p' q u') : p = p' := by
  obtain ⟨b, i, part, rfl⟩ := h.part
  obtain ⟨b', i', part', same⟩ := h'.part
  obtain ⟨rfl, -⟩ := List.append_inj' same rfl
  exact part.unique part'

/-- The traversal that finds the members of a type, and enters the wrappers in the body of an enum,
comes to what is directly in the parts of the body. -/
theorem mem_visitsBelow_body_iff (place : root.at? p = some t) (first : t.body? = some u) {v : Place} :
    (q, v) ∈ visitsBelow (·.isKind .enumMembers) (p ++ [u.before.length]) u ↔
      root.at? q = some v ∧ ∃ b i, root.BodyPart p b ∧ q = b ++ [i] := by
  have body : root.at? (p ++ [u.before.length]) = some u :=
    at?_concat.2 ⟨t, place, (Place.body?_eq_some first).1⟩
  constructor
  · intro h
    obtain ⟨i, c, hc, h⟩ := (mem_visitsBelow _).1 h
    refine visits_induction (P := fun q v => root.at? q = some v ∧
      ∃ b i, root.BodyPart p b ∧ q = b ++ [i]) ?_ ?_ _ h
    · exact ⟨at?_concat.2 ⟨u, body, hc⟩, _, i, .body place first, rfl⟩
    · rintro _ t' i u' ⟨ht', b, j, part, rfl⟩ wrapper hu'
      exact ⟨at?_concat.2 ⟨t', ht', hu'⟩, _, i, .enumMembers part ht' wrapper, rfl⟩
  · rintro ⟨hv, b, i, part, rfl⟩
    rw [mem_visitsBelow]
    induction part generalizing i v with
    | body place' first' =>
      cases place'.symm.trans place
      cases first'.symm.trans first
      obtain ⟨t', ht', hv⟩ := at?_concat.1 hv
      cases ht'.symm.trans body
      exact ⟨i, v, hv, self_mem_visits _ _⟩
    | enumMembers part ht' wrapper ih =>
      obtain ⟨t', ht'', hv⟩ := at?_concat.1 hv
      cases ht''.symm.trans ht'
      obtain ⟨j, c, hc, h⟩ := ih _ ht'
      exact ⟨j, c, hc, child_mem_visits h wrapper hv⟩

theorem bodyPart_body (h : root.BodyPart p b) :
    ∃ t u, root.at? p = some t ∧ t.body? = some u := by
  induction h with
  | body place first => exact ⟨_, _, place, first⟩
  | enumMembers _ _ _ ih => exact ih

/-- The fact of a type reports it. -/
theorem DeclaresType.reports (h : root.DeclaresType p t) :
    root.Reports p t (typeFact t.before t.node) where
  name := rfl
  annotations := rfl
  comment := rfl
  members := by
    let pick (v : Path × Place) : Bool := memberKinds.any (v.2.node.isKind ·)
    have picked (v : Path × Place) : pick v ↔ v.2.node.IsOneOf memberKinds := List.any_eq_true
    cases first : t.body? with
    | none =>
      refine ⟨[], .nil, fun q u => ⟨nofun, fun owns => ?_⟩, ?_⟩
      · obtain ⟨b, i, part, -⟩ := owns.part
        obtain ⟨t', u', place, first'⟩ := bodyPart_body part
        cases place.symm.trans h.place
        cases first'.symm.trans first
      · rw [typeFact, ← Place.map_node_body?, first]
        rfl
    | some u =>
      let found := visitsBelow (·.isKind .enumMembers) (p ++ [u.before.length]) u
      refine ⟨found.filter pick, ?_, fun q v => ?_, ?_⟩
      · exact (visitsBelow_ascending _ u).sublist (List.filter_sublist.map Prod.fst)
      · rw [List.mem_filter, picked, mem_visitsBelow_body_iff h.place first]
        constructor
        · rintro ⟨⟨place, part⟩, kind⟩
          exact ⟨⟨t, h⟩, part, place, kind⟩
        · intro owns
          exact ⟨⟨owns.place, owns.part⟩, owns.kind⟩
      · have members : (typeFact t.before t.node).members =
            found.flatMap fun v => v.2.node.declaredMembers v.2.before := by
          rw [typeFact, ← Place.map_node_body?, first]
          exact (membersOfList_eq_preorderOfList _ _).trans (preorderOfList_eq_visitsBelow _ _ _ u)
        rw [members]
        exact flatMap_filter (fun v hv => declaredMembers_eq_members ((picked v).1 hv))
          fun v hv => declaredMembers_eq_nil (mt (picked v).2 hv)

end Node

open Node in
/-- The walk over a tree is the recursive traversal that reports each type before what is in it. It
reports the types declared below the root, wherever they are, in the order in which they begin, and each
of them once; and with each type the members that are declared directly in its body, in their order. No
member belongs to two types. -/
theorem declaredTypes_traversal (root : Node) :
    root.declaredTypes = preorderOfList (fun _ => true) ownType [] root.children ∧
    (∃ types : List (Path × Place), (types.map Prod.fst).Pairwise (· < ·) ∧
      (∀ p t, (p, t) ∈ types ↔ root.DeclaresType p t) ∧
      List.Forall₂ (fun v fact => root.Reports v.1 v.2 fact) types root.declaredTypes) ∧
    ∀ p p' q u u', root.Owns p q u → root.Owns p' q u' → p = p' := by
  refine ⟨declaredTypes_eq_preorder root, ?_, fun _ _ _ _ _ h h' => h.unique h'⟩
  let found := visitsBelow (fun _ => true) [] ⟨[], root⟩
  have mem (p : Path) (t : Place) : (p, t) ∈ found.filter (·.2.node.isTypeDecl) ↔
      root.DeclaresType p t := by
    rw [List.mem_filter, mem_visitsBelow_iff, isTypeDecl_iff]
    constructor
    · rintro ⟨⟨below, place⟩, kind⟩
      exact ⟨below, place, kind⟩
    · rintro ⟨below, place, kind⟩
      exact ⟨⟨below, place⟩, kind⟩
  refine ⟨found.filter (·.2.node.isTypeDecl), ?_, mem, ?_⟩
  · exact (visitsBelow_ascending _ _).sublist (List.filter_sublist.map Prod.fst)
  · have facts : root.declaredTypes =
        (found.filter (·.2.node.isTypeDecl)).map fun v => typeFact v.2.before v.2.node := by
      rw [declaredTypes_eq_preorder]
      refine (preorderOfList_eq_visitsBelow _ ownType [] ⟨[], root⟩).trans ?_
      rw [List.map_eq_flatMap]
      exact flatMap_filter (fun v hv => if_pos hv) fun v hv => if_neg hv
    rw [facts, List.forall₂_map_right_iff, List.forall₂_same]
    rintro ⟨p, t⟩ h
    exact ((mem p t).1 h).reports

end CodeOutline.Java
