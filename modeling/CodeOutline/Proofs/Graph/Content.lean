import CodeOutline.Proofs.Graph.FactStep

/-!
# The content of a store

What a store says about the files of a repository, without the numbers that hold it together: for each
file, in the order of the files, its path, the name of its namespace, and the types that it declares
with their members. Replacing the facts of a file puts its content in its place, or at the end where
the path is new; namespaces come and go without any change to contents.
-/

namespace CodeOutline.Graph

/-- What is stored about a file. -/
structure FileContent where
  path : String
  namespaceName : String
  types : List TypeFact

/-- The contents with that of one file put in the place of what there is for its path. -/
def putContent (contents : List FileContent) (c : FileContent) : List FileContent :=
  if c.path ∈ contents.map (·.path) then contents.map fun x => if x.path = c.path then c else x
  else contents ++ [c]

theorem draft_injective {m m' : MemberFact} (h : MemberFact.draft m = MemberFact.draft m') :
    m = m' := by
  obtain ⟨name, kind, annotations, comment⟩ := m
  obtain ⟨name', kind', annotations', comment'⟩ := m'
  simp only [MemberFact.draft, MemberDraft.mk.injEq, Option.some.injEq] at h
  obtain ⟨rfl, hkind, rfl, rfl⟩ := h
  have := congrArg MemberKind.ofName? hkind
  rw [MemberKind.ofName?_name, MemberKind.ofName?_name] at this
  rw [Option.some.inj this]

namespace Store

/-- The types of a file as its source declared them. -/
def factsIn (s : Store) (fileId : Id) : List TypeFact :=
  (s.typesIn fileId).map fun t =>
    ⟨t.name, t.annotations, t.comment, (s.membersIn t.id).map MemberRow.fact⟩

/-- The name of the namespace with that number. -/
def nameOf (s : Store) (i : Id) : String :=
  ((s.namespaces.rows.find? (·.id = i)).map (·.name)).getD ""

def contentOf (s : Store) (f : SourceFile) : FileContent :=
  ⟨f.path, s.nameOf f.namespaceId, s.factsIn f.id⟩

/-- The contents of a repository's files, in the order of the files. -/
def contents (s : Store) (key : String) : List FileContent :=
  (s.files.rows.filter (·.repository = key)).map s.contentOf

variable {s t : Store} {key : String}

theorem Consistent.nameOf_eq (h : s.Consistent) {n : Namespace} (hn : n ∈ s.namespaces.rows) :
    s.nameOf n.id = n.name := by
  unfold nameOf
  cases hfind : s.namespaces.rows.find? (·.id = n.id) with
  | none => simpa using List.find?_eq_none.1 hfind n hn
  | some m =>
    have hid : m.id = n.id := by simpa using List.find?_some hfind
    rw [h.namespaceIds.eq_of_id (List.mem_of_find?_eq_some hfind) hn hid]
    rfl

theorem contents_paths (s : Store) (key : String) :
    (s.contents key).map (·.path) = (s.files.rows.filter (·.repository = key)).map (·.path) := by
  rw [contents, List.map_map]
  rfl

/-- A path has one content. -/
theorem Consistent.nodup_paths (h : s.Consistent) (key : String) :
    ((s.contents key).map (·.path)).Nodup := by
  rw [contents_paths]
  exact Table.nodup_names_of_part h.fileKeys key

/-! ## Types and members -/

/-- The members of a type are stored after those that it has, and no other type gets any. -/
theorem addMembers_facts {typeId : Id} {position : Nat} {ms : List MemberFact}
    (ok : addMembers s typeId position (ms.map MemberFact.draft) = .ok t) :
    (t.membersIn typeId).map MemberRow.fact = (s.membersIn typeId).map MemberRow.fact ++ ms ∧
      ∀ i, i ≠ typeId → t.membersIn i = s.membersIn i := by
  induction ms generalizing s position with
  | nil =>
    cases ok
    exact ⟨(List.append_nil _).symm, fun _ _ => rfl⟩
  | cons m rest ih =>
    simp only [List.map_cons, addMembers] at ok
    split at ok
    · next u hu =>
      obtain ⟨row, -, rfl, -, hfact, rfl⟩ := addMember_ok hu
      obtain ⟨own, other⟩ := ih ok
      refine ⟨?_, fun i hi => ?_⟩
      · rw [own, membersIn_push, if_pos rfl, List.map_append, List.map_singleton,
          draft_injective hfact, List.append_assoc, List.singleton_append]
      · rw [other i hi, membersIn_push, if_neg (Ne.symm hi)]
    · cases ok

/-- A type is stored after those that the file has, and no other file gets any. -/
theorem addType_facts {fileId : Id} {position : Nat} {type : TypeFact} (h : s.Consistent)
    (ok : s.addType fileId position (TypeFact.draft type) = .ok t) :
    t.factsIn fileId = s.factsIn fileId ++ [type] ∧ ∀ i, i ≠ fileId → t.factsIn i = s.factsIn i := by
  obtain ⟨row, hid, hfile, -, hdraft, ok⟩ := addType_ok ok
  obtain ⟨own, other⟩ := addMembers_facts ok
  have members (u : TypeRow) (hu : u ∈ s.types.rows) : t.membersIn u.id = s.membersIn u.id := by
    have hne : u.id ≠ row.id := hid ▸ (h.typeIds.lt_nextId hu).ne
    exact other u.id hne
  have old (i : Id) : ((s.typesIn i).map fun u => (⟨u.name, u.annotations, u.comment,
      (t.membersIn u.id).map MemberRow.fact⟩ : TypeFact)) = s.factsIn i := by
    refine List.map_congr_left fun u hu => ?_
    rw [members u (List.mem_filter.1 hu).1]
  have types (i : Id) : t.typesIn i = if row.fileId = i then s.typesIn i ++ [row] else s.typesIn i := by
    rw [addMembers_frame ok]
    exact typesIn_push row i
  have new : (t.membersIn row.id).map MemberRow.fact = type.members := by
    rw [own]
    change (s.membersIn row.id).map MemberRow.fact ++ type.members = type.members
    rw [hid, h.membersIn_nextId, List.map_nil, List.nil_append]
  have same : (⟨row.name, row.annotations, row.comment,
      (t.membersIn row.id).map MemberRow.fact⟩ : TypeFact) = type := by
    obtain ⟨name, annotations, comment, members⟩ := type
    cases hdraft
    rw [new]
  refine ⟨?_, fun i hi => ?_⟩
  · rw [factsIn, types, if_pos hfile, List.map_append, old, List.map_singleton, same]
  · rw [factsIn, types, if_neg (by rw [hfile]; exact Ne.symm hi), old]

theorem addTypes_facts {fileId : Id} {position : Nat} {types : List TypeFact} (h : s.Consistent)
    (hf : s.files.Has (·.id) fileId) (hp : position = (s.typesIn fileId).length)
    (ok : addTypes s fileId position (types.map TypeFact.draft) = .ok t) :
    t.factsIn fileId = s.factsIn fileId ++ types ∧ ∀ i, i ≠ fileId → t.factsIn i = s.factsIn i := by
  induction types generalizing s position with
  | nil =>
    cases ok
    exact ⟨(List.append_nil _).symm, fun _ _ => rfl⟩
  | cons type rest ih =>
    simp only [List.map_cons, addTypes] at ok
    split at ok
    · next u hu =>
      obtain ⟨row, hrow, e⟩ := addType_frame hu
      have next : position + 1 = (u.typesIn fileId).length := by
        rw [e]
        change _ = (({ s with types := s.types.push row } : Store).typesIn fileId).length
        rw [typesIn_push, if_pos hrow, List.length_append, ← hp, List.length_singleton]
      obtain ⟨own, other⟩ := ih (h.addType hf hp hu).1 (by rwa [e]) next ok
      obtain ⟨own', other'⟩ := addType_facts h hu
      refine ⟨?_, fun i hi => ?_⟩
      · rw [own, own', List.append_assoc, List.singleton_append]
      · rw [other i hi, other' i hi]
    · cases ok

/-- Types go with their members, and no other types are touched. -/
theorem factsIn_dropTypes (h : s.Consistent) (doomed : Id → Bool) (i : Id) :
    (s.dropTypes fun u => doomed u.fileId).factsIn i = if doomed i then [] else s.factsIn i := by
  unfold factsIn
  rw [typesIn_dropTypes]
  split
  · rfl
  · next hi =>
    refine List.map_congr_left fun u hu => ?_
    obtain ⟨hu, hf⟩ := List.mem_filter.1 hu
    rw [membersIn_dropTypes, if_neg]
    intro hgone
    obtain ⟨v, hv, e⟩ := List.mem_map.1 hgone
    obtain ⟨hv, hd⟩ := List.mem_filter.1 hv
    rw [h.typeIds.eq_of_id hv hu e, of_decide_eq_true hf] at hd
    exact hi hd

/-! ## Contents -/

/-- The content of a file does not change with the namespaces of a store: the file still lies in its
own. -/
theorem contentOf_of_frame (hs : s.Consistent) (ht : t.Consistent) (ev : s.Evolves t)
    (files : t.files = s.files) (types : t.types = s.types) (members : t.members = s.members)
    {f : SourceFile} (hf : f ∈ s.files.rows) : t.contentOf f = s.contentOf f := by
  have facts : t.factsIn f.id = s.factsIn f.id := by
    unfold factsIn typesIn membersIn
    rw [types, members]
  obtain ⟨n, hn, hid⟩ := hs.fileNamespaces f hf
  obtain ⟨m, hm, hid'⟩ := ht.fileNamespaces f (by rwa [files])
  have old : m.id ≤ s.namespaces.lastId := by
    rw [show m.id = n.id from hid'.trans hid.symm]
    exact hs.namespaceIds.bounded n hn
  obtain ⟨q, hq, e, rfl⟩ := ev.namespaces.row m hm old
  unfold contentOf
  rw [facts, ← hid', ht.nameOf_eq hm, hs.nameOf_eq hq]

theorem contents_of_frame (hs : s.Consistent) (ht : t.Consistent) (ev : s.Evolves t)
    (files : t.files = s.files) (types : t.types = s.types) (members : t.members = s.members) :
    t.contents key = s.contents key := by
  unfold contents
  rw [files]
  refine List.map_congr_left fun f hf => ?_
  exact contentOf_of_frame hs ht ev files types members (List.mem_filter.1 hf).1

/-- What is known about the file, once its facts are replaced, and about all others. -/
theorem replaceFileFacts_facts {draft : FileDraft} {row : SourceFile} {types : List TypeFact}
    (h : s.Consistent)
    (ok : s.replaceFileFacts draft (types.map TypeFact.draft) = .ok (row, t)) (i : Id) :
    t.factsIn i = if i = row.id then types else s.factsIn i := by
  obtain ⟨u, hu, ok⟩ := replaceFileFacts_ok ok
  obtain ⟨hcu, -⟩ := h.putFile hu
  have dropped := factsIn_dropTypes hcu fun i => decide (i = row.id)
  have empty : 0 = ((u.dropTypes (·.fileId = row.id)).typesIn row.id).length := by
    rw [typesIn_dropTypes_self, List.length_nil]
  obtain ⟨own, other⟩ := addTypes_facts (hcu.dropTypes fun i => decide (i = row.id))
    (.of_mem (t := u.files) (putFile_mem hu)) empty ok
  have before : u.factsIn i = s.factsIn i := by rw [putFile_frame hu]; rfl
  split
  · next e =>
    rw [e, own, dropped, if_pos (decide_eq_true rfl), List.nil_append]
  · next e =>
    rw [other i e, dropped, if_neg (by simpa using e), before]

/-- A file that is stored again keeps its place among the contents. -/
theorem contents_of_updated (h : s.Consistent) {old row : SourceFile} (hold : old ∈ s.files.rows)
    (hid : row.id = old.id) (hkey : row.repository = old.repository)
    (files : t.files.rows = s.files.rows.map fun f => if f.id = old.id then row else f)
    (same : ∀ f, f.id ≠ row.id → t.contentOf f = s.contentOf f) :
    t.contents old.repository =
      (s.contents old.repository).map fun c => if c.path = old.path then t.contentOf row else c := by
  have byPath (f : SourceFile) (hf : f ∈ s.files.rows) (hfk : f.repository = old.repository) :
      f.id = old.id ↔ f.path = old.path := by
    constructor
    · intro e
      rw [h.fileIds.eq_of_id hf hold e]
    · intro e
      rw [List.inj_on_of_nodup_map h.fileKeys hf hold (Prod.ext hfk e)]
  have filtered : t.files.rows.filter (·.repository = old.repository) =
      (s.files.rows.filter (·.repository = old.repository)).map
        fun f => if f.id = old.id then row else f := by
    rw [files, List.filter_map]
    refine congrArg _ (List.filter_congr fun f hf => ?_)
    simp only [Function.comp_apply]
    split
    · next e => rw [h.fileIds.eq_of_id hf hold e, hkey]
    · rfl
  rw [contents, filtered, contents, List.map_map, List.map_map]
  refine List.map_congr_left fun f hf => ?_
  obtain ⟨hf, hfk⟩ := List.mem_filter.1 hf
  have hf := byPath f hf (of_decide_eq_true hfk)
  simp only [Function.comp_apply]
  by_cases e : f.id = old.id
  · rw [if_pos e]
    exact (if_pos (hf.1 e)).symm
  · rw [if_neg e, same f (by rwa [hid])]
    exact (if_neg fun hp => e (hf.2 hp)).symm

/-- A file that is stored for the first time comes after the contents that there are. -/
theorem contents_of_added (h : s.Consistent) {row : SourceFile} (hid : row.id = s.files.nextId)
    (hkey : row.repository = key) (files : t.files.rows = s.files.rows ++ [row])
    (same : ∀ f, f.id ≠ row.id → t.contentOf f = s.contentOf f) :
    t.contents key = s.contents key ++ [t.contentOf row] := by
  rw [contents, files, List.filter_append, List.map_append,
    List.filter_cons_of_pos (by simpa using hkey), List.filter_nil, List.map_singleton]
  refine congrArg (· ++ _) (List.map_congr_left fun f hf => same f ?_)
  rw [hid]
  exact (h.fileIds.lt_nextId (List.mem_filter.1 hf).1).ne

/-- A repository has a content for each path that it has a file for. -/
theorem mem_paths {path : String} :
    path ∈ (s.contents key).map (·.path) ↔ ∃ f ∈ s.files.rows, f.repository = key ∧ f.path = path := by
  rw [contents_paths]
  simp [and_assoc]

/-- The row of a file whose facts are replaced has the new content, and all other rows have theirs. -/
theorem replaceFileFacts_contentOf {node : Namespace} {path hash : String} {types : List TypeFact}
    {row : SourceFile} (h : s.Consistent) (hn : node ∈ s.namespaces.rows)
    (ok : s.replaceFileFacts ⟨key, node.id, path, hash⟩ (types.map TypeFact.draft) = .ok (row, t)) :
    t.contentOf row = ⟨path, node.name, types⟩ ∧ ∀ f, f.id ≠ row.id → t.contentOf f = s.contentOf f := by
  have facts := replaceFileFacts_facts h ok
  obtain ⟨put, frame⟩ := replaceFileFacts_frame ok
  have names (i : Id) : t.nameOf i = s.nameOf i := by rw [frame]; rfl
  have place : row.path = path ∧ row.namespaceId = node.id := by
    obtain ⟨_, _, _, -, hid, hpath, -, ⟨old, hold, hrow, -⟩ | ⟨-, hrow, -⟩⟩ := putFile_ok put
    · cases hid
      cases hpath
      rw [hrow]
      exact ⟨(file?_eq_some hold).2.2, rfl⟩
    · cases hid
      cases hpath
      rw [hrow]
      exact ⟨rfl, rfl⟩
  constructor
  · unfold contentOf
    rw [names, facts, if_pos rfl, place.1, place.2, h.nameOf_eq hn]
  · intro f hf
    unfold contentOf
    rw [names, facts, if_neg hf]

/-- The content of a file is put in its place. -/
theorem replaceFileFacts_contents {node : Namespace} {path hash : String} {types : List TypeFact}
    {row : SourceFile} (h : s.Consistent) (hn : node ∈ s.namespaces.rows)
    (ok : s.replaceFileFacts ⟨key, node.id, path, hash⟩ (types.map TypeFact.draft) = .ok (row, t)) :
    t.contents key = putContent (s.contents key) ⟨path, node.name, types⟩ := by
  obtain ⟨new, same⟩ := replaceFileFacts_contentOf h hn ok
  obtain ⟨put, -⟩ := replaceFileFacts_frame ok
  obtain ⟨_, _, _, hkey, hid, hpath, -, ⟨old, hold, hrow, files⟩ | ⟨hnone, hrow, files⟩⟩ :=
    putFile_ok put
  · cases hkey
    cases hid
    cases hpath
    obtain ⟨hmem, rfl, rfl⟩ := file?_eq_some hold
    have there : old.path ∈ (s.contents old.repository).map (·.path) :=
      mem_paths.2 ⟨old, hmem, rfl, rfl⟩
    have updated := contents_of_updated h hmem (by rw [hrow]) (by rw [hrow])
      (congrArg (fun u => u.files.rows) files) same
    rw [new] at updated
    rw [putContent, if_pos there]
    exact updated
  · cases hkey
    cases hid
    cases hpath
    have absent : path ∉ (s.contents key).map (·.path) := by
      intro hmem
      obtain ⟨f, hf, rfl, rfl⟩ := mem_paths.1 hmem
      exact file?_eq_none.1 hnone (List.mem_map.2 ⟨f, hf, rfl⟩)
    have added := contents_of_added h (by rw [hrow]) (by rw [hrow])
      (congrArg (fun u => u.files.rows) files) same
    rw [new] at added
    rw [putContent, if_neg absent]
    exact added

/-- A file that is kept keeps its content. -/
theorem deleteFilesExcept_contentOf (h : s.Consistent) {keep : List String} {f : SourceFile}
    (hf : f ∈ s.files.rows) (kept : f.repository = key → f.path ∈ keep) :
    (s.deleteFilesExcept key keep).2.contentOf f = s.contentOf f := by
  let doomed (f : SourceFile) : Bool := f.repository = key && !keep.contains f.path
  let gone := (s.files.rows.filter doomed).map (·.id)
  have live : gone.contains f.id = false := by
    rw [List.contains_eq_mem, decide_eq_false_iff_not]
    intro hgone
    obtain ⟨g, hg, e⟩ := List.mem_map.1 hgone
    obtain ⟨hg, hd⟩ := List.mem_filter.1 hg
    obtain rfl := h.fileIds.eq_of_id hg hf e
    simp only [doomed, Bool.and_eq_true, decide_eq_true_eq, Bool.not_eq_true', List.contains_eq_mem,
      decide_eq_false_iff_not] at hd
    exact hd.2 (kept hd.1)
  have same := factsIn_dropTypes h (gone.contains ·) f.id
  rw [live, if_neg Bool.false_ne_true] at same
  unfold contentOf
  rw [← same]
  rfl

/-- Of the contents those of the kept paths are left. -/
theorem deleteFilesExcept_contents (h : s.Consistent) (key : String) (keep : List String) :
    (s.deleteFilesExcept key keep).2.contents key =
      (s.contents key).filter (keep.contains ·.path) := by
  let doomed (f : SourceFile) : Bool := f.repository = key && !keep.contains f.path
  have filtered : (s.files.rows.filter (!doomed ·)).filter (·.repository = key) =
      (s.files.rows.filter (·.repository = key)).filter (keep.contains ·.path) := by
    rw [List.filter_filter, List.filter_filter]
    refine List.filter_congr fun f _ => ?_
    by_cases hf : f.repository = key <;> simp [doomed, hf]
  have rows : (s.deleteFilesExcept key keep).2.files.rows = s.files.rows.filter (!doomed ·) := rfl
  unfold contents
  rw [rows, filtered, List.filter_map]
  refine List.map_congr_left fun f hf => ?_
  obtain ⟨hf, hpath⟩ := List.mem_filter.1 hf
  exact deleteFilesExcept_contentOf h (List.mem_filter.1 hf).1 fun _ => List.contains_iff_mem.1 hpath

end Store

end CodeOutline.Graph
