import CodeOutline.Proofs.Graph.Needed
import CodeOutline.Proofs.Report.Hydration
import CodeOutline.Report.Markdown

/-!
# Documents without a store

The text of a document as it follows from facts alone: from the names of the namespaces and the
contents of the files, without rows and their numbers. The report of the tree of a store is the
document of the store's names and contents.

Sorted by name, a document does not depend on the order in which names and contents are given.
-/

namespace CodeOutline.Report

open CodeOutline.Graph

/-! ## Texts -/

/-- The line of a method or a field. -/
def memberText (label : String) (m : MemberFact) : String :=
  s!"    - **{label}**: {m.name} ({commas m.annotations})\n"

/-- The members of a kind. -/
def membersText (order : Order) (label : String) (kind : MemberKind) (t : TypeFact) : String :=
  String.join ((order.arrange (·.name) (t.members.filter (·.kind = kind))).map (memberText label))

/-- The lines of a type: its name and annotations, its methods, its fields. -/
def typeText (order : Order) (t : TypeFact) : String :=
  s!"  - **Class**: {t.name}\n    - **Annotations**: [{commas t.annotations}]\n" ++
    membersText order "Method" .method t ++ membersText order "Field" .field t

/-- The lines of a file and its types. -/
def fileText (order : Order) (c : FileContent) : String :=
  s!"- **File**: {fileNameOf c.path}\n" ++
    String.join ((order.arrange (·.name) c.types).map (typeText order))

/-- The section of a namespace, with its files out of all contents. -/
def namespaceText (order : Order) (contents : List FileContent) (name : String) : String :=
  s!"#### Package: {name}\n\n" ++
    String.join ((order.arrange (·.path) (contents.filter (·.namespaceName = name))).map
      (fileText order)) ++ "\n"

/-- The document of some namespaces and files. -/
def documentText (order : Order) (heading : Heading) (names : List String)
    (contents : List FileContent) : String :=
  heading.render ++ String.join ((order.arrange id names).map (namespaceText order contents))

/-! ## Sorting -/

section Arrange

variable {α β : Type}

theorem arrange_map (order : Order) (key : β → String) (f : α → β) (l : List α) :
    order.arrange key (l.map f) = (order.arrange (fun a => key (f a)) l).map f := by
  cases order with
  | insertion => rfl
  | name =>
    simp only [Order.arrange]
    exact (List.map_mergeSort (f := f) fun _ _ _ _ => rfl).symm

/-- Sorting by different names does not depend on the order before. -/
theorem arrange_name_perm {key : α → String} {l m : List α} (h : l.Perm m)
    (hkey : (l.map key).Nodup) : Order.name.arrange key l = Order.name.arrange key m := by
  let le (a b : α) : Bool := !decide (key b < key a)
  have hle (a b : α) : le a b = true ↔ key a ≤ key b := by
    show (!decide (key b < key a)) = true ↔ key a ≤ key b
    rw [Bool.not_eq_true', decide_eq_false_iff_not]
    exact String.not_lt
  have trans (a b c : α) : le a b → le b c → le a c := by
    simp only [hle]
    exact fun hab hbc => String.le_trans hab hbc
  have total (a b : α) : (le a b || le b a) = true := by
    rw [Bool.or_eq_true, hle, hle]
    exact String.le_total _ _
  have sorted (l : List α) := List.pairwise_mergeSort trans total l
  refine List.Perm.eq_of_pairwise (fun a b ha hb hab hba => ?_) (sorted l) (sorted m)
    ((List.mergeSort_perm l le).trans (h.trans (List.mergeSort_perm m le).symm))
  have hkeys : key a = key b := String.le_antisymm ((hle a b).1 hab) ((hle b a).1 hba)
  exact List.inj_on_of_nodup_map hkey (List.mem_mergeSort.1 ha)
    (h.mem_iff.2 (List.mem_mergeSort.1 hb)) hkeys

end Arrange

/-- A document that is sorted by name depends on which names and contents there are, and not on their
order. -/
theorem documentText_name_perm {heading : Heading} {names names' : List String}
    {contents contents' : List FileContent} (hn : names.Perm names') (hnames : names.Nodup)
    (hc : contents.Perm contents') (hpaths : (contents.map (·.path)).Nodup) :
    documentText .name heading names contents = documentText .name heading names' contents' := by
  have files (name : String) :
      namespaceText .name contents name = namespaceText .name contents' name := by
    unfold namespaceText
    rw [arrange_name_perm (hc.filter _) (hpaths.sublist (List.filter_sublist.map _))]
  unfold documentText
  rw [arrange_name_perm hn (by rwa [List.map_id]), List.map_congr_left fun name _ => files name]

/-! ## The report of a store -/

variable {s : Store} {key : String}

theorem render_typeBranch (order : Order) (t : TypeRow) :
    (typeBranch s t).render order =
      typeText order ⟨t.name, t.annotations, t.comment, (s.membersIn t.id).map MemberRow.fact⟩ := by
  have members (label : String) (kind : MemberKind) :
      String.join ((order.arrange (·.name) ((s.membersIn t.id).filter (·.kind = kind))).map
        (memberLine label)) =
      membersText order label kind
        ⟨t.name, t.annotations, t.comment, (s.membersIn t.id).map MemberRow.fact⟩ := by
    unfold membersText
    rw [List.filter_map, arrange_map, List.map_map]
    rfl
  unfold TypeBranch.render typeText
  rw [← members, ← members]
  rfl

theorem render_fileBranch (order : Order) (f : SourceFile) :
    (fileBranch s f).render order = fileText order (s.contentOf f) := by
  unfold FileBranch.render fileText Store.contentOf Store.factsIn
  rw [arrange_map, List.map_map]
  simp only [fileBranch, Option.getD_some]
  rw [arrange_map, List.map_map]
  simp only [Function.comp_def, render_typeBranch]
  rfl

/-- The files in a namespace are those with contents in it. -/
theorem filesIn_eq (hs : s.Consistent) (hf : s.Forest) {n : Namespace} (hn : n ∈ s.namespacesOf key) :
    (filesIn s n.id).map s.contentOf = (s.contents key).filter (·.namespaceName = n.name) := by
  obtain ⟨hn, hkey⟩ := List.mem_filter.1 hn
  have hkey := of_decide_eq_true hkey
  unfold Store.contents filesIn
  rw [List.filter_map, List.filter_filter]
  refine congrArg _ (List.filter_congr fun f hfile => ?_)
  obtain ⟨m, hm, hid, hown⟩ := hf.ownFiles f hfile
  have hname : (s.contentOf f).namespaceName = m.name := by
    rw [Store.contentOf, ← hid, hs.nameOf_eq hm]
  rw [Bool.eq_iff_iff]
  simp only [Function.comp_apply, Bool.and_eq_true, decide_eq_true_eq, hname]
  constructor
  · intro e
    obtain rfl := hs.namespaceIds.eq_of_id hm hn (hid.trans e)
    exact ⟨rfl, hown ▸ hkey⟩
  · rintro ⟨hname, hrepository⟩
    have : m = n := List.inj_on_of_nodup_map hs.namespaceKeys hm hn
      (Prod.ext (hown.trans (hrepository.trans hkey.symm)) hname)
    rw [← this, hid]

theorem render_namespaceBranch (hs : s.Consistent) (hf : s.Forest) (order : Order) {n : Namespace}
    (hn : n ∈ s.namespacesOf key) :
    NamespaceBranch.render order ⟨n, some ((filesIn s n.id).map (fileBranch s))⟩ =
      namespaceText order (s.contents key) n.name := by
  have files : (order.arrange (·.fact.path) ((filesIn s n.id).map (fileBranch s))).map
        (FileBranch.render order) =
      (order.arrange (·.path) ((s.contents key).filter (·.namespaceName = n.name))).map
        (fileText order) := by
    rw [← filesIn_eq hs hf hn, arrange_map, arrange_map, List.map_map, List.map_map]
    exact List.map_congr_left fun f _ => render_fileBranch order f
  unfold NamespaceBranch.render namespaceText
  rw [← files]
  rfl

/-- The report of a repository in a store is the document of its namespaces and contents. -/
theorem render_treeIn (hs : s.Consistent) (hf : s.Forest) (order : Order) (heading : Heading)
    (key : String) :
    (treeIn s heading (s.namespacesOf key)).render order =
      documentText order heading (s.namesIn key) (s.contents key) := by
  unfold Tree.render documentText treeIn treeWith Store.namesIn
  rw [arrange_map, arrange_map, List.map_map, List.map_map]
  refine congrArg (fun sections => heading.render ++ String.join sections) ?_
  refine List.map_congr_left fun n hn => render_namespaceBranch hs hf order ?_
  unfold Order.arrange at hn
  split at hn
  · exact hn
  · exact List.mem_mergeSort.1 hn

end CodeOutline.Report
