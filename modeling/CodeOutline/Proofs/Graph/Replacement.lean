import CodeOutline.Proofs.Graph.Columns
import CodeOutline.Proofs.Graph.Rows
import CodeOutline.Proofs.Graph.Stored

/-!
# What a replacement does

After the facts of a file have been replaced, the file is found at its path with the new values and the
number that it had, or a new one; the queries give the new facts, nothing of the old ones is left, and
everything else is as it was. `Replaced` says this clause by clause, `Consistent.replaced` that every
replacement does it.
-/

namespace CodeOutline.Graph.Store

variable {s t : Store} {key path hash : String} {namespaceId : Id} {types : List TypeFact}
  {row : SourceFile}

/-- The store `t` is `s` with the facts of the file at a path replaced. -/
structure Replaced (s t : Store) (key path hash : String) (namespaceId : Id) (types : List TypeFact)
    (row : SourceFile) : Prop where
  found : t.file? key path = some row
  values : row.namespaceId = namespaceId ∧ row.contentHash = hash
  /-- A file that was there keeps its number. -/
  again : ∀ old, s.file? key path = some old → row.id = old.id ∧ row.version = old.version + 1
  /-- A new file gets a number greater than all others. -/
  first : s.file? key path = none → row.version = 0 ∧ ∀ f ∈ s.files.rows, f.id < row.id
  facts : t.readFacts row.id = types.map some
  /-- Types and members are numbered in their order. -/
  positions : (t.typesIn row.id).map (·.position) = List.range types.length ∧
    ∀ u ∈ t.typesIn row.id, (t.membersIn u.id).map (·.position) = List.range (t.membersIn u.id).length
  /-- The numbers of the types and members before are gone. -/
  gone : ∀ u ∈ s.typesIn row.id, ¬ t.types.Has (·.id) u.id ∧
    ∀ m ∈ s.membersIn u.id, ¬ t.members.Has (·.id) m.id
  otherFiles : ∀ other place, ¬ (other = key ∧ place = path) → t.file? other place = s.file? other place
  otherTypes : ∀ i, i ≠ row.id → t.typesIn i = s.typesIn i
  otherMembers : ∀ u ∈ s.types.rows, u.fileId ≠ row.id → t.membersIn u.id = s.membersIn u.id
  otherFacts : ∀ i, i ≠ row.id → t.readFacts i = s.readFacts i
  otherTables : t.repositories = s.repositories ∧ t.namespaces = s.namespaces ∧
    t.snapshots = s.snapshots

theorem putFile_again {draft : FileDraft} {old : SourceFile} (hkey : draft.repository = some key)
    (hpath : draft.path = some path) (ok : s.putFile draft = .ok (row, t))
    (there : s.file? key path = some old) : row.id = old.id ∧ row.version = old.version + 1 := by
  obtain ⟨_, _, _, hk, -, hp, -, ⟨old', hold, rfl, -⟩ | ⟨none, -, -⟩⟩ := putFile_ok ok
  · cases hkey.symm.trans hk
    cases hpath.symm.trans hp
    cases there.symm.trans hold
    exact ⟨rfl, rfl⟩
  · cases hkey.symm.trans hk
    cases hpath.symm.trans hp
    cases there.symm.trans none

theorem putFile_first {draft : FileDraft} (h : s.Consistent) (hkey : draft.repository = some key)
    (hpath : draft.path = some path) (ok : s.putFile draft = .ok (row, t))
    (absent : s.file? key path = none) : row.version = 0 ∧ ∀ f ∈ s.files.rows, f.id < row.id := by
  obtain ⟨_, _, _, hk, -, hp, -, ⟨old, hold, -, -⟩ | ⟨-, rfl, -⟩⟩ := putFile_ok ok
  · cases hkey.symm.trans hk
    cases hpath.symm.trans hp
    cases absent.symm.trans hold
  · exact ⟨rfl, fun f hf => h.fileIds.lt_nextId hf⟩

/-- Two stores with the same rows at a path find the same file there. -/
theorem file?_congr (hs : s.Consistent) (ht : t.Consistent)
    (rows : ∀ f, f.repository = key → f.path = path → (f ∈ t.files.rows ↔ f ∈ s.files.rows)) :
    t.file? key path = s.file? key path := by
  cases there : s.file? key path with
  | some f =>
    obtain ⟨hf, rfl, rfl⟩ := file?_eq_some there
    exact ht.file?_eq ((rows f rfl rfl).2 hf)
  | none =>
    cases new : t.file? key path with
    | none => rfl
    | some f =>
      obtain ⟨hf, rfl, rfl⟩ := file?_eq_some new
      cases there.symm.trans (hs.file?_eq ((rows f rfl rfl).1 hf))

section Dropped

variable {u : Store} {fileId : Id} {drafts : List TypeDraft} {i : Id}

/-- Types that are dropped before others are written do not come back. -/
theorem dropTypes_addTypes_gone (hu : u.Consistent) (hf : u.files.Has (·.id) fileId)
    (ok : (u.dropTypes (·.fileId = fileId)).addTypes fileId 0 drafts = .ok t) :
    ∀ v ∈ u.typesIn fileId, ¬ t.types.Has (·.id) v.id ∧
      ∀ m ∈ u.membersIn v.id, ¬ t.members.Has (·.id) m.id := by
  have empty : 0 = ((u.dropTypes (·.fileId = fileId)).typesIn fileId).length := by
    rw [typesIn_dropTypes_self, List.length_nil]
  obtain ⟨-, ev⟩ := (hu.dropTypes fun i => decide (i = fileId)).addTypes hf empty ok
  intro v hv
  obtain ⟨hv, own⟩ := List.mem_filter.1 hv
  refine ⟨?_, fun m hm => ?_⟩
  · rintro ⟨w, hw, same⟩
    obtain ⟨q, hq, e, -⟩ := ev.types.row w hw (same.trans_le (hu.typeIds.bounded v hv))
    obtain ⟨hq, kept⟩ := List.mem_filter.1 hq
    obtain rfl := hu.typeIds.eq_of_id hq hv (e.trans same)
    simp [own] at kept
  · obtain ⟨hm, below⟩ := List.mem_filter.1 hm
    rintro ⟨w, hw, same⟩
    obtain ⟨q, hq, e, -⟩ := ev.members.row w hw (same.trans_le (hu.memberIds.bounded m hm))
    obtain ⟨hq, kept⟩ := List.mem_filter.1 hq
    obtain rfl := hu.memberIds.eq_of_id hq hm (e.trans same)
    have dropped : q.typeId ∈ (u.types.rows.filter (·.fileId = fileId)).map (·.id) :=
      of_decide_eq_true below ▸ List.mem_map_of_mem (List.mem_filter.2 ⟨hv, own⟩)
    simp [dropped] at kept

theorem dropTypes_addTypes_typesIn
    (ok : (u.dropTypes (·.fileId = fileId)).addTypes fileId 0 drafts = .ok t) (other : i ≠ fileId) :
    t.typesIn i = u.typesIn i := by
  obtain ⟨new, -, rows, -, own, -⟩ := addTypes_rows ok
  have elsewhere : new.filter (·.fileId = i) = [] :=
    List.filter_eq_nil_iff.2 fun w hw => by simpa [own w hw] using Ne.symm other
  have kept := typesIn_dropTypes (s := u) (fun j => decide (j = fileId)) i
  rw [if_neg (by simpa using other)] at kept
  rw [typesIn, rows, List.filter_append, elsewhere, List.append_nil]
  exact kept

theorem dropTypes_addTypes_membersIn (hu : u.Consistent) (ht : t.Consistent)
    (ok : (u.dropTypes (·.fileId = fileId)).addTypes fileId 0 drafts = .ok t) {v : TypeRow}
    (hv : v ∈ u.types.rows) (other : v.fileId ≠ fileId) : t.membersIn v.id = u.membersIn v.id := by
  obtain ⟨newTypes, new, types, rows, own, belongs⟩ := addTypes_rows ok
  have live : v ∈ t.types.rows :=
    types ▸ List.mem_append_left _ (List.mem_filter.2 ⟨hv, by simpa using other⟩)
  have elsewhere : new.filter (·.typeId = v.id) = [] := by
    refine List.filter_eq_nil_iff.2 fun m hm e => other ?_
    obtain ⟨w, hw, e'⟩ := belongs m hm
    have mem : w ∈ t.types.rows := types ▸ List.mem_append_right _ hw
    rw [← ht.typeIds.eq_of_id mem live (e'.trans (of_decide_eq_true e)), own w hw]
  have undropped : v.id ∉ (u.types.rows.filter (·.fileId = fileId)).map (·.id) := by
    intro gone
    obtain ⟨w, hw, e⟩ := List.mem_map.1 gone
    obtain ⟨hw, doomed⟩ := List.mem_filter.1 hw
    obtain rfl := hu.typeIds.eq_of_id hw hv e
    exact other (of_decide_eq_true doomed)
  have kept := membersIn_dropTypes (s := u) (·.fileId = fileId) v.id
  rw [if_neg undropped] at kept
  rw [membersIn, rows, List.filter_append, elsewhere, List.append_nil]
  exact kept

end Dropped

/-- Every replacement does all of it. -/
theorem Consistent.replaced (h : s.Consistent)
    (ok : s.replaceFileFacts ⟨key, namespaceId, path, hash⟩ (types.map TypeFact.draft) = .ok (row, t)) :
    s.Replaced t key path hash namespaceId types row := by
  obtain ⟨ht, -⟩ := h.replaceFileFacts ok
  obtain ⟨put, frame⟩ := replaceFileFacts_frame ok
  obtain ⟨hkey, hpath, hnamespace, hhash⟩ := putFile_row put
  have facts := replaceFileFacts_facts h ok
  -- The types go and come in the store that has the row of the file already.
  obtain ⟨u, hput, written⟩ := replaceFileFacts_ok ok
  obtain ⟨hu, -⟩ := h.putFile hput
  have there : u.files.Has (·.id) row.id := .of_mem (t := u.files) (putFile_mem hput)
  have before : u = { s with files := u.files } := putFile_frame hput
  have types_ : u.types = s.types := by rw [before]
  have sameTypes (i : Id) : u.typesIn i = s.typesIn i := by rw [typesIn, types_, typesIn]
  have sameMembers (i : Id) : u.membersIn i = s.membersIn i := by rw [before]; rfl
  refine {
    found := ?_
    values := ⟨hnamespace, hhash⟩
    again := fun old there => putFile_again rfl rfl put there
    first := fun absent => putFile_first h rfl rfl put absent
    facts := ?_
    positions := ⟨?_, fun u _ => ht.memberPositions u.id⟩
    gone := ?_
    otherFiles := fun other place elsewhere => ?_
    otherTypes := fun i other => ?_
    otherMembers := fun v hv other => ?_
    otherFacts := fun i other => ?_
    otherTables := by rw [frame]; exact ⟨rfl, rfl, rfl⟩ }
  · have mem := putFile_mem put
    rw [← hkey, ← hpath]
    exact ht.file?_eq mem
  · rw [ht.readFacts_eq, facts, if_pos rfl]
  · have length : (t.typesIn row.id).length = types.length := by
      have := congrArg List.length (facts row.id)
      rwa [if_pos rfl, factsIn, List.length_map] at this
    rw [ht.typePositions, length]
  · intro v hv
    rw [← sameTypes] at hv
    rw [← sameMembers]
    exact dropTypes_addTypes_gone hu there written v hv
  · exact file?_congr h ht fun f hkey hpath => (putFile_other h put elsewhere hkey hpath).1
  · rw [dropTypes_addTypes_typesIn written other, sameTypes]
  · rw [dropTypes_addTypes_membersIn hu ht written (types_ ▸ hv) other, sameMembers]
  · rw [ht.readFacts_eq, h.readFacts_eq, facts, if_neg other]

end CodeOutline.Graph.Store
