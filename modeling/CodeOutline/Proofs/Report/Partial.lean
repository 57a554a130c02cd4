import CodeOutline.Proofs.Report.Hydration

/-!
# Trees with gaps

What a tree looks like when the children of some parents have been fetched and those of others have not:
`partialTree` is a function of the store and of which parents are `Known`. An answer about some of the
parents that were asked for, each with its children, makes these parents known and changes nothing else
(`fillFiles_partialTree`, `fillTypes_partialTree`, `fillMembers_partialTree`).
-/

namespace CodeOutline.Report

open CodeOutline.Graph

/-- The parents whose children have been fetched: namespaces, files and types. -/
structure Known where
  namespaces : Id → Bool
  files : Id → Bool
  types : Id → Bool

/-- The type, with its members where they are known. -/
def partialType (s : Store) (k : Known) (u : TypeRow) : TypeBranch :=
  if k.types u.id then typeBranch s u else { fact := u }

/-- The file, with its types where they are known. -/
def partialFile (s : Store) (k : Known) (f : SourceFile) : FileBranch where
  fact := f
  types := if k.files f.id then some ((s.typesIn f.id).map (partialType s k)) else none

/-- The namespaces, each with its files where they are known. -/
def partialTree (s : Store) (k : Known) (heading : Heading) (namespaces : List Namespace) : Tree where
  heading := heading
  namespaces := namespaces.map fun n =>
    { node := n
      files := if k.namespaces n.id then some ((filesIn s n.id).map (partialFile s k)) else none }

/-- What lies below the parents that are known. -/
def below {α : Type} (id : α → Id) (children : Id → List α) (known : Id → Bool) (parents : List Id) :
    List Id :=
  ((parents.filter known).flatMap children).map id

/-- The files of a tree. -/
def Known.reachedFiles (s : Store) (k : Known) (namespaces : List Namespace) : List Id :=
  below (·.id) (filesIn s) k.namespaces (namespaces.map (·.id))

/-- The types of a tree. -/
def Known.reachedTypes (s : Store) (k : Known) (namespaces : List Namespace) : List Id :=
  below (·.id) s.typesIn k.files (k.reachedFiles s namespaces)

/-- Nothing is known below a parent that is not. -/
structure Known.Layered (s : Store) (k : Known) : Prop where
  files : ∀ f ∈ s.files.rows, k.files f.id → k.namespaces f.namespaceId
  types : ∀ u ∈ s.types.rows, k.types u.id → k.files u.fileId

variable {s : Store} {k : Known} {heading : Heading} {namespaces : List Namespace} {i : Id}

theorem mem_filesIn {f : SourceFile} : f ∈ filesIn s i ↔ f ∈ s.files.rows ∧ f.namespaceId = i := by
  simp [filesIn]

theorem mem_typesIn {u : TypeRow} : u ∈ s.typesIn i ↔ u ∈ s.types.rows ∧ u.fileId = i := by
  simp [Store.typesIn]

theorem mem_below {α : Type} {id : α → Id} {children : Id → List α} {known : Id → Bool}
    {parents : List Id} :
    i ∈ below id children known parents ↔
      ∃ p ∈ parents, known p ∧ ∃ a ∈ children p, id a = i := by
  simp only [below, List.mem_map, List.mem_flatMap, List.mem_filter]
  exact ⟨fun ⟨a, ⟨p, ⟨hp, known⟩, ha⟩, e⟩ => ⟨p, hp, known, a, ha, e⟩,
    fun ⟨p, hp, known, a, ha, e⟩ => ⟨a, ⟨p, ⟨hp, known⟩, ha⟩, e⟩⟩

theorem nodup_below {α : Type} {id : α → Id} {t : Table α} {parent : α → Id} {known : Id → Bool}
    {parents : List Id} (h : parents.Nodup) (ordered : t.Ordered id) :
    (below id (fun p => t.rows.filter (parent · = p)) known parents).Nodup :=
  nodup_children parent (h.filter _) ordered

/-! ## Who is asked for -/

theorem openNamespaces_partialTree :
    (partialTree s k heading namespaces).openNamespaces.map (·.node.id) =
      (namespaces.map (·.id)).filter (!k.namespaces ·) := by
  simp only [Tree.openNamespaces, partialTree, List.filter_map, List.map_map]
  refine congrArg _ (List.filter_congr fun n _ => ?_)
  cases known : k.namespaces n.id <;> simp [known]

/-- The children of those that are known, in the order of their parents. -/
theorem flatMap_known {α β : Type} (id : α → Id) (known : Id → Bool) (children : Id → List β)
    (parents : List α) :
    (parents.flatMap fun p => (if known (id p) then some (children (id p)) else none).getD []) =
      ((parents.map id).filter known).flatMap children := by
  induction parents with
  | nil => rfl
  | cons p rest ih => cases h : known (id p) <;> simp [h, ih]

theorem files_partialTree :
    (partialTree s k heading namespaces).files =
      (((namespaces.map (·.id)).filter k.namespaces).flatMap (filesIn s)).map (partialFile s k) := by
  rw [List.map_flatMap, ← flatMap_known]
  simp [Tree.files, partialTree, List.flatMap_map]

theorem openFiles_partialTree :
    (partialTree s k heading namespaces).openFiles.map (·.fact.id) =
      (k.reachedFiles s namespaces).filter (!k.files ·) := by
  simp only [Tree.openFiles, files_partialTree, Known.reachedFiles, below, List.filter_map,
    List.map_map]
  refine congrArg _ (List.filter_congr fun f _ => ?_)
  cases known : k.files f.id <;> simp [partialFile, known]

theorem types_partialTree :
    (partialTree s k heading namespaces).types =
      (((k.reachedFiles s namespaces).filter k.files).flatMap s.typesIn).map (partialType s k) := by
  rw [List.map_flatMap, Known.reachedFiles, below, ← flatMap_known]
  simp [Tree.types, files_partialTree, List.flatMap_map, partialFile]

theorem isFetched_partialType (u : TypeRow) : (partialType s k u).isFetched = k.types u.id := by
  cases known : k.types u.id <;> simp [partialType, known, typeBranch, TypeBranch.isFetched]

theorem fact_partialType (u : TypeRow) : (partialType s k u).fact = u := by
  unfold partialType
  split <;> rfl

theorem openTypes_partialTree :
    (partialTree s k heading namespaces).openTypes.map (·.fact.id) =
      (k.reachedTypes s namespaces).filter (!k.types ·) := by
  simp [Tree.openTypes, types_partialTree, Known.reachedTypes, below, List.filter_map,
    Function.comp_def, isFetched_partialType, fact_partialType]

/-! ## Filling in an answer -/

/-- An answer about some of the parents that were asked for, with the children of each. -/
def AnswersFor {α : Type} (answer : List (Id × List α)) (asked : List Id) (children : Id → List α) :
    Prop :=
  ∀ i l, childrenIn answer i = some l → i ∈ asked ∧ l = children i

/-- What is known after an answer. -/
def learn {α : Type} (known : Id → Bool) (answer : List (Id × List α)) (i : Id) : Bool :=
  known i || (childrenIn answer i).isSome

theorem learn_of_known {α : Type} {known : Id → Bool} (answer : List (Id × List α)) (h : known i) :
    learn known answer i := by
  simp [learn, h]

theorem AnswersFor.cases_of_unknown {α : Type} {answer : List (Id × List α)} {asked : List Id}
    {children : Id → List α} {known : Id → Bool} (h : AnswersFor answer asked children)
    (unknown : known i = false) :
    (childrenIn answer i = none ∧ learn known answer i = false) ∨
      (childrenIn answer i = some (children i) ∧ learn known answer i = true) := by
  cases answered : childrenIn answer i with
  | none => exact .inl ⟨rfl, by simp [learn, unknown, answered]⟩
  | some l =>
    obtain ⟨-, rfl⟩ := h i l answered
    exact .inr ⟨rfl, by simp [learn, answered]⟩

theorem fillFiles_partialTree (hk : k.Layered s) {answer : List (Id × List SourceFile)}
    {asked : List Id} (h : AnswersFor answer asked (filesIn s)) :
    (partialTree s k heading namespaces).fillFiles answer =
      partialTree s { k with namespaces := learn k.namespaces answer } heading namespaces := by
  unfold Tree.fillFiles partialTree
  rw [List.map_map]
  refine congrArg (Tree.mk heading) (List.map_congr_left fun n _ => ?_)
  cases known : k.namespaces n.id with
  | true =>
    simp only [Function.comp_apply, known, if_true, Option.isSome_some, learn_of_known answer known]
    rfl
  | false =>
    obtain ⟨answered, same⟩ | ⟨answered, now⟩ := h.cases_of_unknown known
    · simp [known, answered, same]
    · have untouched : ∀ f ∈ filesIn s n.id, ({ fact := f } : FileBranch) =
          partialFile s { k with namespaces := learn k.namespaces answer } f := by
        intro f hf
        obtain ⟨mem, e⟩ := mem_filesIn.1 hf
        have unknown : ¬ k.files f.id := fun hfile => by
          simp [← e, hk.files f mem hfile] at known
        simp [partialFile, unknown]
      simp [known, answered, now, List.map_congr_left untouched]

/-- The change acts on each file of the tree as on a file of the other. -/
theorem mapFiles_partialTree {k' : Known} {change : FileBranch → FileBranch}
    (same : k'.namespaces = k.namespaces)
    (h : ∀ f ∈ s.files.rows, change (partialFile s k f) = partialFile s k' f) :
    (partialTree s k heading namespaces).mapFiles change = partialTree s k' heading namespaces := by
  unfold Tree.mapFiles partialTree
  rw [List.map_map, same]
  refine congrArg (Tree.mk heading) (List.map_congr_left fun n _ => ?_)
  have files : (filesIn s n.id).map (change ∘ partialFile s k) =
      (filesIn s n.id).map (partialFile s k') :=
    List.map_congr_left fun f hf => h f (mem_filesIn.1 hf).1
  cases known : k.namespaces n.id <;> simp [known, files]

theorem fillTypes_partialTree (hk : k.Layered s) {answer : List (Id × List TypeRow)}
    {asked : List Id} (h : AnswersFor answer asked s.typesIn) :
    (partialTree s k heading namespaces).fillTypes answer =
      partialTree s { k with files := learn k.files answer } heading namespaces := by
  refine mapFiles_partialTree rfl fun f _ => ?_
  cases known : k.files f.id with
  | true =>
    simp only [partialFile, known, if_true, Option.isSome_some, learn_of_known answer known]
    rfl
  | false =>
    obtain ⟨answered, same⟩ | ⟨answered, now⟩ := h.cases_of_unknown known
    · simp [partialFile, known, answered, same]
    · have untouched : ∀ u ∈ s.typesIn f.id, ({ fact := u } : TypeBranch) =
          partialType s { k with files := learn k.files answer } u := by
        intro u hu
        obtain ⟨mem, e⟩ := mem_typesIn.1 hu
        have unknown : ¬ k.types u.id := fun htype => by
          simp [← e, hk.types u mem htype] at known
        simp [partialType, unknown]
      simp [partialFile, known, answered, now, List.map_congr_left untouched]

theorem fillMembers_partialTree {answer : List (Id × List MemberRow)} {asked : List Id}
    (h : AnswersFor answer asked s.membersIn) :
    (partialTree s k heading namespaces).fillMembers answer =
      partialTree s { k with types := learn k.types answer } heading namespaces := by
  refine mapFiles_partialTree rfl fun f _ => ?_
  simp only [partialFile]
  refine congrArg (FileBranch.mk f) ?_
  cases k.files f.id with
  | false => rfl
  | true =>
    simp only [if_true, Option.map_some, List.map_map]
    refine congrArg some (List.map_congr_left fun u _ => ?_)
    cases known : k.types u.id with
    | true => simp [partialType, known, learn_of_known answer known, typeBranch, TypeBranch.isFetched]
    | false =>
      obtain ⟨answered, same⟩ | ⟨answered, now⟩ := h.cases_of_unknown known
      · simp [partialType, known, TypeBranch.isFetched, answered, same]
      · simp [partialType, known, TypeBranch.isFetched, answered, now, typeBranch]

/-! ## What is known stays in layers -/

theorem Known.Layered.learnNamespaces (hk : k.Layered s) (answer : List (Id × List SourceFile)) :
    ({ k with namespaces := learn k.namespaces answer } : Known).Layered s where
  files f hf known := learn_of_known answer (hk.files f hf known)
  types := hk.types

theorem Known.Layered.learnFiles (hk : k.Layered s) (hs : s.Consistent)
    {answer : List (Id × List TypeRow)}
    (h : AnswersFor answer ((k.reachedFiles s namespaces).filter (!k.files ·)) s.typesIn) :
    ({ k with files := learn k.files answer } : Known).Layered s where
  files f hf known := by
    obtain known | answered := Bool.or_eq_true_iff.1 known
    · exact hk.files f hf known
    · obtain ⟨l, answered⟩ := Option.isSome_iff_exists.1 answered
      obtain ⟨p, -, known, g, hg, e⟩ := mem_below.1 (List.mem_filter.1 (h _ l answered).1).1
      obtain ⟨mem, rfl⟩ := mem_filesIn.1 hg
      rwa [← hs.fileIds.eq_of_id mem hf e]
  types u hu known := learn_of_known answer (hk.types u hu known)

theorem Known.Layered.learnTypes (hk : k.Layered s) (hs : s.Consistent)
    {answer : List (Id × List MemberRow)}
    (h : AnswersFor answer ((k.reachedTypes s namespaces).filter (!k.types ·)) s.membersIn) :
    ({ k with types := learn k.types answer } : Known).Layered s where
  files := hk.files
  types u hu known := by
    obtain known | answered := Bool.or_eq_true_iff.1 known
    · exact hk.types u hu known
    · obtain ⟨l, answered⟩ := Option.isSome_iff_exists.1 answered
      obtain ⟨p, -, known, v, hv, e⟩ := mem_below.1 (List.mem_filter.1 (h _ l answered).1).1
      obtain ⟨mem, rfl⟩ := mem_typesIn.1 hv
      rwa [← hs.typeIds.eq_of_id mem hu e]

/-! ## Trees without gaps -/

theorem isEmpty_of_ids {α : Type} {id : α → Id} {rows : List α} {known : Id → Bool} {ids : List Id}
    (h : rows.map id = ids.filter (!known ·)) : rows.isEmpty ↔ ∀ i ∈ ids, known i := by
  rw [← List.isEmpty_map (f := id), h]
  simp

theorem isComplete_partialTree :
    (partialTree s k heading namespaces).isComplete ↔
      (∀ i ∈ namespaces.map (·.id), k.namespaces i) ∧ (∀ i ∈ k.reachedFiles s namespaces, k.files i) ∧
        ∀ i ∈ k.reachedTypes s namespaces, k.types i := by
  rw [Tree.isComplete, Bool.and_eq_true, Bool.and_eq_true, isEmpty_of_ids openNamespaces_partialTree,
    isEmpty_of_ids openFiles_partialTree, isEmpty_of_ids openTypes_partialTree, and_assoc]

/-- A tree without gaps is the one that the rows make. -/
theorem partialTree_of_isComplete (h : (partialTree s k heading namespaces).isComplete) :
    partialTree s k heading namespaces = treeIn s heading namespaces := by
  obtain ⟨allNamespaces, allFiles, allTypes⟩ := isComplete_partialTree.1 h
  unfold partialTree treeIn treeWith
  refine congrArg (Tree.mk heading) (List.map_congr_left fun n hn => ?_)
  have known := allNamespaces n.id (List.mem_map_of_mem hn)
  rw [known, if_pos rfl]
  refine congrArg (fun files => NamespaceBranch.mk n (some files)) (List.map_congr_left fun f hf => ?_)
  have reached : f.id ∈ k.reachedFiles s namespaces :=
    mem_below.2 ⟨n.id, List.mem_map_of_mem hn, known, f, hf, rfl⟩
  have known := allFiles f.id reached
  unfold partialFile fileBranch
  rw [known, if_pos rfl]
  refine congrArg (fun types => FileBranch.mk f (some types)) (List.map_congr_left fun u hu => ?_)
  exact if_pos (allTypes u.id (mem_below.2 ⟨f.id, reached, known, u, hu, rfl⟩))

end CodeOutline.Report
