import CodeOutline.Proofs.Graph.Climb
import CodeOutline.Proofs.Graph.Content

/-!
# Needed namespaces

A namespace is `Occupied` if a file lies in it or somewhere below it. The chains of the namespaces in
which files lie are needed, and no others: once no namespace of a repository is empty any more, its
namespaces are those of its contents with the chains above them. The number of a namespace is greater
than that of its parent, so going down from any namespace ends, and it ends at a file
(`Forest.occupied`).
-/

namespace CodeOutline.Graph.Store

/-- A file lies in the namespace, or in one that is below it by one step or by several. -/
inductive Occupied (s : Store) : Namespace → Prop where
  | file {n : Namespace} {f : SourceFile} (mem : f ∈ s.files.rows) (own : f.namespaceId = n.id) :
      s.Occupied n
  | deeper {n child : Namespace} (mem : child ∈ s.namespaces.rows) (linked : child.parent = some n.id)
      (inner : s.Occupied child) : s.Occupied n

variable {s t : Store} {key : String}

/-- No round is left to be made. -/
theorem emptyNamespaces_deleteEmptyNamespaces (s : Store) (key : String) :
    (s.deleteEmptyNamespaces key).2.emptyNamespaces key = [] := by
  induction s using deleteEmptyNamespaces.induct key with
  | case1 s hnone => rwa [deleteEmptyNamespaces, dif_pos hnone]
  | case2 s hsome gone count t _ ih =>
    rw [deleteEmptyNamespaces, dif_neg hsome]
    exact ih

/-- A namespace that is not empty has a file in it or a namespace below it. -/
theorem exists_of_emptyNamespaces_eq_nil (h : s.emptyNamespaces key = []) {n : Namespace}
    (hn : n ∈ s.namespaces.rows) (hkey : n.repository = key) :
    (∃ f ∈ s.files.rows, f.namespaceId = n.id) ∨ ∃ c ∈ s.namespaces.rows, c.parent = some n.id := by
  have full := List.filter_eq_nil_iff.1 h n hn
  rw [isEmptyNamespace_iff] at full
  by_contra hno
  obtain ⟨hfiles, hbelow⟩ := not_or.1 hno
  exact full ⟨hkey, fun f hf e => hfiles ⟨f, hf, e⟩, fun c hc e => hbelow ⟨c, hc, e⟩⟩

/-- The content of a file lies in a namespace of the file's own repository. -/
theorem Forest.namespaceName_mem (hs : s.Consistent) (hf : s.Forest) {c : FileContent}
    (hc : c ∈ s.contents key) : c.namespaceName ∈ s.namesIn key := by
  obtain ⟨f, hmem, rfl⟩ := List.mem_map.1 hc
  obtain ⟨hmem, hkey⟩ := List.mem_filter.1 hmem
  obtain ⟨n, hn, hid, hown⟩ := hf.ownFiles f hmem
  refine mem_namesIn.2 ⟨n, hn, hown.trans (of_decide_eq_true hkey), ?_⟩
  rw [contentOf, ← hid, hs.nameOf_eq hn]

/-- What a namespace and the one below it have to do with each other. -/
theorem Forest.of_parent (hs : s.Consistent) (hf : s.Forest) {n c : Namespace}
    (hn : n ∈ s.namespaces.rows) (hc : c ∈ s.namespaces.rows) (hparent : c.parent = some n.id) :
    n.repository = c.repository ∧ parentName? c.name = some n.name ∧ n.id < c.id := by
  have linked := hf.linked c hc
  unfold Linked at linked
  split at linked
  · rw [hparent] at linked
    cases linked
  · next above habove =>
    obtain ⟨m, hm, hmkey, hmname, hmid⟩ := linked
    have hid : m.id = n.id := Option.some.inj (hmid.symm.trans hparent)
    obtain rfl := hs.namespaceIds.eq_of_id hm hn hid
    refine ⟨hmkey, ?_, hf.older c hc m.id hparent⟩
    rw [habove, hmname]

/-- Where no namespace is empty, a branch can only end at a file. -/
theorem Forest.occupied (hs : s.Consistent) (hf : s.Forest) (hnone : s.emptyNamespaces key = [])
    {n : Namespace} (hn : n ∈ s.namespaces.rows) (hkey : n.repository = key) : s.Occupied n := by
  have closer (a b l : Int) (hab : a < b) (hbl : b ≤ l) : (l - b).toNat < (l - a).toNat := by omega
  induction hk : (s.namespaces.lastId - n.id).toNat using Nat.strong_induction_on generalizing n with
  | _ k ih =>
    subst hk
    rcases exists_of_emptyNamespaces_eq_nil hnone hn hkey with ⟨f, hfile, hid⟩ | ⟨c, hc, hparent⟩
    · exact .file hfile hid
    · -- A namespace below this one has a greater number, so there are fewer below it.
      obtain ⟨own, -, older⟩ := hf.of_parent hs hn hc hparent
      have bounded := hs.namespaceIds.bounded c hc
      exact .deeper hc hparent (ih _ (closer _ _ _ older bounded) hc (own.symm.trans hkey) rfl)

/-- The content below an occupied namespace. -/
theorem Forest.exists_content (hs : s.Consistent) (hf : s.Forest) {n : Namespace} (h : s.Occupied n)
    (hn : n ∈ s.namespaces.rows) (hkey : n.repository = key) :
    ∃ c ∈ s.contents key, n.name ∈ dottedPrefixes c.namespaceName := by
  induction h with
  | @file n f hfile hid =>
    obtain ⟨m, hm, hmid, hown⟩ := hf.ownFiles f hfile
    obtain rfl := hs.namespaceIds.eq_of_id hm hn (hmid.trans hid)
    refine ⟨s.contentOf f, List.mem_map_of_mem (List.mem_filter.2 ⟨hfile, ?_⟩), ?_⟩
    · exact decide_eq_true (hown.symm.trans hkey)
    · rw [contentOf, hid, hs.nameOf_eq hn]
      exact mem_dottedPrefixes_self _
  | @deeper n c hc hparent _ ih =>
    obtain ⟨own, named, -⟩ := hf.of_parent hs hn hc hparent
    obtain ⟨x, hx, hmem⟩ := ih hc (own.symm.trans hkey)
    refine ⟨x, hx, dottedPrefixes_trans ?_ hmem⟩
    rw [dottedPrefixes_of_parent named]
    exact List.mem_append_left _ (mem_dottedPrefixes_self _)

/-- Below each namespace there is a file. -/
theorem Forest.exists_content_below (hs : s.Consistent) (hf : s.Forest)
    (hnone : s.emptyNamespaces key = []) {n : Namespace} (hn : n ∈ s.namespaces.rows)
    (hkey : n.repository = key) : ∃ c ∈ s.contents key, n.name ∈ dottedPrefixes c.namespaceName :=
  hf.exists_content hs (hf.occupied hs hnone hn hkey) hn hkey

/-- Once no namespace is empty, the namespaces are the chains of those in which files lie. -/
theorem Forest.mem_namesIn_iff (hs : s.Consistent) (hf : s.Forest)
    (hnone : s.emptyNamespaces key = []) (name : String) :
    name ∈ s.namesIn key ↔ ∃ c ∈ s.contents key, name ∈ dottedPrefixes c.namespaceName := by
  constructor
  · intro hname
    obtain ⟨n, hn, hkey, rfl⟩ := mem_namesIn.1 hname
    exact hf.exists_content_below hs hnone hn hkey
  · rintro ⟨c, hc, hname⟩
    exact hf.mem_of_mem_dottedPrefixes (hf.namespaceName_mem hs hc) hname

/-- Removing empty namespaces changes no content. -/
theorem deleteEmptyNamespaces_contents (hs : s.Consistent) (key other : String) :
    (s.deleteEmptyNamespaces key).2.contents other = s.contents other := by
  obtain ⟨ht, ev⟩ := hs.deleteEmptyNamespaces key
  obtain ⟨-, files, types, members⟩ := deleteEmptyNamespaces_frame s key
  exact contents_of_frame hs ht ev files types members

theorem nodup_namesIn (hs : s.Consistent) (key : String) : (s.namesIn key).Nodup :=
  Table.nodup_names_of_part hs.namespaceKeys key

end CodeOutline.Graph.Store
