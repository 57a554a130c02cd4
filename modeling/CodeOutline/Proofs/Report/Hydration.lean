import CodeOutline.Proofs.Graph.Children
import CodeOutline.Report.Assembly

/-!
# Trees of a store

What the assembly of a document fetches from a store, level by level, is the tree that the rows make:
below each namespace its files, below each file its types, below each type its members, methods and
fields apart. A store answers in full, so no repair pass is made.
-/

namespace CodeOutline.Report

open CodeOutline.Graph

/-- The type with its members. -/
def typeBranch (s : Store) (t : TypeRow) : TypeBranch where
  fact := t
  methods := some ((s.membersIn t.id).filter (·.kind = .method))
  fields := some ((s.membersIn t.id).filter (·.kind = .field))

/-- The file with its types. -/
def fileBranch (s : Store) (f : SourceFile) : FileBranch where
  fact := f
  types := some ((s.typesIn f.id).map (typeBranch s))

/-- The files in the namespace with that number. -/
def filesIn (s : Store) (i : Id) : List SourceFile :=
  s.files.rows.filter (·.namespaceId = i)

/-- The namespaces with their files, each of which is as `branch` says. -/
def treeWith (branch : SourceFile → FileBranch) (s : Store) (heading : Heading)
    (namespaces : List Namespace) : Tree where
  heading := heading
  namespaces := namespaces.map fun n => { node := n, files := some ((filesIn s n.id).map branch) }

/-- The tree that the rows of a store make. -/
def treeIn (s : Store) (heading : Heading) (namespaces : List Namespace) : Tree :=
  treeWith (fileBranch s) s heading namespaces

variable {s : Store} {heading : Heading} {namespaces : List Namespace}

/-- All files of the namespaces. -/
def allFiles (s : Store) (namespaces : List Namespace) : List SourceFile :=
  (namespaces.map (·.id)).flatMap (filesIn s)

theorem treeWith_files (branch : SourceFile → FileBranch) :
    (treeWith branch s heading namespaces).files = (allFiles s namespaces).map branch := by
  simp [Tree.files, treeWith, allFiles, List.flatMap_map, List.map_flatMap]

theorem treeWith_congr {branch branch' : SourceFile → FileBranch}
    (h : ∀ f ∈ allFiles s namespaces, branch f = branch' f) :
    treeWith branch s heading namespaces = treeWith branch' s heading namespaces := by
  unfold treeWith
  refine congrArg (Tree.mk heading) (List.map_congr_left fun n hn => ?_)
  refine congrArg (fun files => NamespaceBranch.mk n (some files)) ?_
  refine List.map_congr_left fun f hf => h f ?_
  exact List.mem_flatMap.2 ⟨n.id, List.mem_map_of_mem hn, hf⟩

theorem mapFiles_treeWith (branch : SourceFile → FileBranch) (change : FileBranch → FileBranch) :
    (treeWith branch s heading namespaces).mapFiles change =
      treeWith (change ∘ branch) s heading namespaces := by
  simp [Tree.mapFiles, treeWith, Function.comp_def]

/-- A question about some parents, one for each. -/
theorem childrenIn_ask {α : Type} {parent : α → Id} {rows : List α} {ids : List Id} {i : Id}
    (query : List Id → Store → List (Id × List α) × Store)
    (hquery : ∀ ids, query ids s = (groupByParent parent rows ids, s)) (h : ids.Nodup) (hi : i ∈ ids) :
    childrenIn (ask query ids s).1 i = some (rows.filter (parent · = i)) := by
  have hne : ids.isEmpty = false := by
    cases ids with
    | nil => cases hi
    | cons => rfl
  have found : ids.find? (fun j => decide (j = i)) = some i := by
    cases hfind : ids.find? (fun j => decide (j = i)) with
    | none => simpa using List.find?_eq_none.1 hfind i hi
    | some j =>
      rw [of_decide_eq_true (List.find?_some (p := fun j => decide (j = i)) hfind)]
  unfold ask childrenIn
  rw [if_neg (by simp [hne]), hquery, groupByParent_of_nodup parent rows h, List.find?_map]
  simp only [Function.comp_def, found, Option.map_some]

theorem ask_snd {α : Type} (query : List Id → Store → List (Id × List α) × Store) (ids : List Id)
    (hquery : ∀ ids, (query ids s).2 = s) : (ask query ids s).2 = s := by
  unfold ask
  split
  · rfl
  · exact hquery ids

/-- The first level: the files of each namespace. -/
theorem fillFiles_ask (h : (namespaces.map (·.id)).Nodup) :
    let t : Tree := ⟨heading, namespaces.map ({ node := · })⟩
    t.fillFiles (ask Source.store.files (t.openNamespaces.map (·.node.id)) s).1 =
      treeWith ({ fact := · }) s heading namespaces := by
  intro t
  have ids : t.openNamespaces.map (·.node.id) = namespaces.map (·.id) := by
    simp only [t, Tree.openNamespaces, List.filter_map, List.map_map]
    exact congrArg _ (List.filter_eq_self.2 fun n _ => rfl)
  rw [ids]
  unfold Tree.fillFiles treeWith
  rw [List.map_map]
  refine congrArg (Tree.mk heading) (List.map_congr_left fun n hn => ?_)
  simp only [Function.comp_apply, Option.isSome_none, Bool.false_eq_true, if_false]
  rw [childrenIn_ask Source.store.files (fun _ => rfl) h (List.mem_map_of_mem hn)]
  rfl

/-- The second level: the types of each file. -/
theorem fillTypes_ask (hs : s.Consistent) (h : (namespaces.map (·.id)).Nodup) :
    let t := treeWith ({ fact := · }) s heading namespaces
    t.fillTypes (ask Source.store.types (t.openFiles.map (·.fact.id)) s).1 =
      treeWith (fun f => { fact := f, types := some ((s.typesIn f.id).map ({ fact := · })) }) s heading
        namespaces := by
  intro t
  have ids : t.openFiles.map (·.fact.id) = (allFiles s namespaces).map (·.id) := by
    simp [t, Tree.openFiles, treeWith_files, List.filter_map, Function.comp_def]
  have nodup : ((allFiles s namespaces).map (·.id)).Nodup :=
    nodup_children SourceFile.namespaceId h hs.fileIds
  rw [ids]
  unfold Tree.fillTypes
  rw [mapFiles_treeWith]
  refine treeWith_congr fun f hf => ?_
  simp only [Function.comp_apply, Option.isSome_none, Bool.false_eq_true, if_false]
  rw [childrenIn_ask Source.store.types (fun _ => rfl) nodup (List.mem_map_of_mem hf)]
  rfl

/-- The third level: the members of each type. -/
theorem fillMembers_ask (hs : s.Consistent) (h : (namespaces.map (·.id)).Nodup) :
    let t := treeWith (fun f => { fact := f, types := some ((s.typesIn f.id).map ({ fact := · })) }) s
      heading namespaces
    t.fillMembers (ask Source.store.members (t.openTypes.map (·.fact.id)) s).1 =
      treeIn s heading namespaces := by
  intro t
  have types : t.types = ((allFiles s namespaces).map (·.id)).flatMap fun i =>
      (s.typesIn i).map ({ fact := · }) := by
    simp [t, Tree.types, treeWith_files, List.flatMap_map]
  have ids : t.openTypes.map (·.fact.id) =
      (((allFiles s namespaces).map (·.id)).flatMap s.typesIn).map (·.id) := by
    simp [Tree.openTypes, types, TypeBranch.isFetched, List.filter_flatMap, List.filter_map,
      List.map_flatMap, Function.comp_def]
  have nodup : ((((allFiles s namespaces).map (·.id)).flatMap s.typesIn).map (·.id)).Nodup :=
    nodup_children TypeRow.fileId (nodup_children SourceFile.namespaceId h hs.fileIds) hs.typeIds
  rw [ids]
  unfold Tree.fillMembers Tree.mapTypes treeIn
  rw [mapFiles_treeWith]
  refine treeWith_congr fun f hf => ?_
  simp only [Function.comp_apply, Option.map_some, List.map_map, fileBranch]
  refine congrArg (fun types => FileBranch.mk f (some types)) (List.map_congr_left fun u hu => ?_)
  have mem : u.id ∈ (((allFiles s namespaces).map (·.id)).flatMap s.typesIn).map (·.id) :=
    List.mem_map_of_mem (List.mem_flatMap.2 ⟨f.id, List.mem_map_of_mem hf, hu⟩)
  simp only [Function.comp_apply, TypeBranch.isFetched, Option.isSome_none, Bool.false_and,
    Bool.false_eq_true, if_false]
  rw [childrenIn_ask Source.store.members (fun _ => rfl) nodup mem]
  rfl

/-- One pass fetches the whole tree. -/
theorem hydrate_store (hs : s.Consistent) (h : (namespaces.map (·.id)).Nodup) :
    Tree.hydrate .store ⟨heading, namespaces.map ({ node := · })⟩ s =
      (treeIn s heading namespaces, s) := by
  unfold Tree.hydrate
  dsimp only
  rw [fillFiles_ask h, ask_snd Source.store.files _ fun _ => rfl, fillTypes_ask hs h,
    ask_snd Source.store.types _ fun _ => rfl, fillMembers_ask hs h,
    ask_snd Source.store.members _ fun _ => rfl]

theorem isComplete_treeIn : (treeIn s heading namespaces).isComplete := by
  have files : (treeIn s heading namespaces).files = (allFiles s namespaces).map (fileBranch s) :=
    treeWith_files _
  have namespaces : (treeIn s heading namespaces).openNamespaces = [] := by
    simp [Tree.openNamespaces, treeIn, treeWith]
  have openFiles : (treeIn s heading ‹_›).openFiles = [] := by
    simp [Tree.openFiles, files, fileBranch]
  have openTypes : (treeIn s heading ‹_›).openTypes = [] := by
    refine List.filter_eq_nil_iff.2 fun b hb => ?_
    obtain ⟨f, hf, hb⟩ := List.mem_flatMap.1 hb
    rw [files] at hf
    obtain ⟨f, -, rfl⟩ := List.mem_map.1 hf
    obtain ⟨u, -, rfl⟩ := List.mem_map.1 hb
    simp [typeBranch, TypeBranch.isFetched]
  simp [Tree.isComplete, namespaces, openFiles, openTypes]

/-- The assembly of a document from a store fails only where there is nothing to show. -/
theorem assemble_store (hs : s.Consistent) (h : (namespaces.map (·.id)).Nodup) :
    assemble .store heading namespaces s =
      if namespaces.isEmpty then (.error (.notFound heading.name), s, [])
      else (.ok (treeIn s heading namespaces), s, []) := by
  unfold assemble
  split
  · rfl
  · rw [hydrate_store hs h]
    simp only [Tree.repair, repairLimit, isComplete_treeIn, if_true]

end CodeOutline.Report
