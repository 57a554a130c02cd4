import CodeOutline.Proofs.Service.Made

/-!
# What a generation can be seen to do

Of a store that its own statements have made, a generation sees little: the current document of its
repository, the names of its namespaces and the contents of its files. `comesTo` computes from this
`View` what the generation answers, without rows and without numbers, and `perform_shown` says that it
is what the generation does answer.

Going through files and removing what is no longer listed are functions of a view as well, so the view
that a new document is made of is computed from the one before.
-/

namespace CodeOutline.Service

open CodeOutline.Files CodeOutline.Graph CodeOutline.Ingest CodeOutline.Remote CodeOutline.Report
open CodeOutline.Text

/-! ## Views -/

/-- What a saved document has been made of and written to. -/
structure Saved where
  text : String
  commit : String
  exportPath : Option String
  deriving Repr, DecidableEq

def savedOf (d : Snapshot) : Saved := ⟨d.payload, d.commit, d.exportPath⟩

/-- What is seen of a repository in a store. -/
structure View where
  current : Option Saved
  /-- The names of the namespaces, in the order of their numbers. -/
  names : List String
  contents : List FileContent

/-- What is seen of the repository of that owner and name. -/
def viewOf (s : Store) (owner name : String) : View where
  current := (s.currentOf owner name).map savedOf
  names := s.namesIn (slugOf owner name)
  contents := s.contents (slugOf owner name)

/-- The view once some files have been gone through. -/
def View.ingested (v : View) (files : List FileContent) : View :=
  { v with names := files.foldl addChain v.names, contents := files.foldl putContent v.contents }

/-- The view without files of other paths, and without namespaces that no file needs. -/
def View.pruned (v : View) (paths : List String) : View :=
  let contents := v.contents.filter (paths.contains ·.path)
  { v with
    names := v.names.filter fun name =>
      contents.any fun c => (dottedPrefixes c.namespaceName).contains name
    contents }

/-! ## Answers -/

/-- What a result shows, without the numbers of rows. -/
structure Shown where
  text : String
  reused : Bool
  report : Option Report
  outputPath : Option String
  deriving Repr, DecidableEq

def Result.shown (r : Result) : Shown := ⟨r.text, r.reused, r.report, r.outputPath⟩

/-- What is returned of a saved document. -/
def Saved.shown (d : Saved) : Shown where
  text := d.text
  reused := true
  report := none
  outputPath := d.exportPath.bind fun path =>
    if path.isEmpty then none else some (Path.ofString path).text

/-- The repository as a draft describes it, under no number. -/
def described (draft : RepositoryDraft) : Except StoreFault Repository := do
  let owner ← required "repositories" "owner" draft.owner
  let name ← required "repositories" "repo_name" draft.name
  let defaultBranch ← required "repositories" "default_branch" draft.defaultBranch
  return ⟨0, owner, name, draft.commit, draft.description, defaultBranch, 0⟩

/-- What making a document of a view comes to. -/
def documentIn (settings : Settings) (random : String) (r : Repository) (report : Report) (v : View)
    (d : Disk) : Except Fault Shown :=
  if v.names.isEmpty then .error (.generation ⟨.assembly (.notFound r.name), some report⟩)
  else
    let text := documentText settings.order (headingOf r) v.names v.contents
    (outputOf settings random r text report d).map fun outputPath =>
      ⟨text, false, some report, outputPath⟩

/-- What a new document comes to, with the files that are listed now. -/
def renewedIn (remote : Remote) (settings : Settings) (random : String) (toStart : Option Nat)
    (r : Repository) (v : View) (d : Disk) : Except Fault Shown := do
  let paths ← listed remote settings r.owner r.name
  let report ← ingestion remote settings r.owner r.name toStart
  let files := parsed settings.language (remote.text r.owner r.name) (started toStart paths)
  documentIn settings random r report ((v.ingested files).pruned paths) d

/-- What a generation by usable names comes to, where `views` is what is seen of each repository. -/
def comesTo (remote : Remote) (settings : Settings) (random owner name : String) (force : Bool)
    (toStart : Option Nat) (views : String → String → View) (d : Disk) : Except Fault Shown := do
  let draft ← identityOf remote owner name
  let r ← (described draft).mapError .store
  let v := views r.owner r.name
  match v.current.filter (·.commit = r.commit), force with
  | some saved, false => return saved.shown
  | _, _ => renewedIn remote settings random toStart r v d

/-- What a generation comes to. -/
def Generation.comesTo (g : Generation) (views : String → String → View) : Except Fault Shown :=
  match g.owner, g.name with
  | some owner, some name =>
    if isBlankText owner || isBlankText name then .error .blankName
    else Service.comesTo g.remote g.settings g.random owner name g.force g.toStart views g.disk
  | _, _ => .error .blankName

/-! ## Metadata -/

section Metadata

variable {s t : Store} {draft : RepositoryDraft}

/-- What is stored about a repository is what is described, under a number. -/
theorem described_of_put {row : Repository} (ok : s.putRepository draft = .ok (row, t))
    (hs : s.Consistent) : described draft = .ok { row with id := 0, version := 0 } := by
  obtain ⟨howner, hname, hcommit, hdescription, -⟩ := Store.putRepository_documents hs ok
  obtain ⟨_, _, branch, -, -, hbranch, stored⟩ := Store.putRepository_ok ok
  have hrow : row.defaultBranch = branch := by
    rcases stored with ⟨old, -, rfl, -⟩ | ⟨-, rfl, -⟩
    · rfl
    · rfl
  unfold described
  rw [howner, hname, hbranch, ← hcommit, ← hdescription, ← hrow]
  rfl

theorem described_names {r : Repository} (h : described draft = .ok r) :
    draft.owner = some r.owner ∧ draft.name = some r.name := by
  unfold described at h
  simp only [andThen_eq_ok, required_eq_ok] at h
  obtain ⟨owner, howner, name, hname, branch, -, h⟩ := h
  cases h
  exact ⟨howner, hname⟩

/-- What cannot be stored cannot be described, and the other way round. -/
theorem putRepository_error {fault : StoreFault} :
    s.putRepository draft = .error fault ↔ described draft = .error fault := by
  unfold Store.putRepository described required
  simp only [bind, Except.bind, pure, Except.pure]
  cases draft.owner with
  | none => simp only [Except.error.injEq]
  | some owner =>
    cases draft.name with
    | none => simp only [Except.error.injEq]
    | some name =>
      cases draft.defaultBranch with
      | none => simp only [Except.error.injEq]
      | some branch =>
        dsimp only
        split
        · simp only [reduceCtorEq]
        · simp only [reduceCtorEq]

theorem viewOf_put {row : Repository} (hs : s.Consistent)
    (ok : s.putRepository draft = .ok (row, t)) : viewOf t = viewOf s := by
  obtain ⟨-, -, -, -, -, same⟩ := Store.putRepository_documents hs ok
  have frame := Store.putRepository_frame ok
  funext owner name
  unfold viewOf
  rw [(same owner name).1, frame]
  rfl

end Metadata

/-! ## Facts -/

section Facts

variable {s t : Store} {owner name : String}

theorem current_of_run {key : String} (run : Store.FactRun key s t) (owner name : String) :
    (t.currentOf owner name).map savedOf = (s.currentOf owner name).map savedOf := by
  have same := congrArg (Option.map savedOf) (run.documents owner name).1
  rw [Option.map_map, Option.map_map] at same
  exact same

/-- Going through files is a function of the view. -/
theorem viewOf_ingested {language : Language} {fetch : String → Call String} {paths : List String}
    (h : Ingested language (slugOf owner name) fetch paths s t) (hs : s.Consistent) (hf : s.Forest) :
    viewOf t owner name = (viewOf s owner name).ingested (parsed language fetch paths) := by
  obtain ⟨contents, names⟩ := h.contents hs hf
  unfold viewOf
  rw [contents, names, current_of_run h.run owner name]
  rfl

/-- The rounds that remove namespaces leave some of them, in their order. -/
theorem exists_filter_deleteEmptyNamespaces (s : Store) (key : String) :
    ∃ kept : Namespace → Bool,
      (s.deleteEmptyNamespaces key).2.namespaces.rows = s.namespaces.rows.filter kept := by
  refine Store.deleteEmptyNamespaces_keeps
    (P := fun u => ∃ kept : Namespace → Bool, u.namespaces.rows = s.namespaces.rows.filter kept) key
    (fun u hu => ?_) ⟨fun _ => true, (List.filter_true _).symm⟩
  obtain ⟨kept, hkept⟩ := hu
  let gone := (u.emptyNamespaces key).map (·.id)
  refine ⟨fun n => !gone.contains n.id && kept n, ?_⟩
  rw [← List.filter_filter, ← hkept]
  rfl

/-- The namespaces that are left are those that files need. -/
theorem namesIn_deleteEmptyNamespaces (hs : s.Consistent) (hf : s.Forest) (key : String) :
    (s.deleteEmptyNamespaces key).2.namesIn key = (s.namesIn key).filter fun name =>
      (s.contents key).any fun c => (dottedPrefixes c.namespaceName).contains name := by
  have run : Store.FactRun key s (s.deleteEmptyNamespaces key).2 := .single (.deleteNamespaces s)
  obtain ⟨ht, -⟩ := run.consistent hs
  have needed := (run.forest hs hf).mem_namesIn_iff ht (Store.emptyNamespaces_deleteEmptyNamespaces s key)
  rw [Store.deleteEmptyNamespaces_contents hs] at needed
  obtain ⟨kept, hkept⟩ := exists_filter_deleteEmptyNamespaces s key
  have mem {n : Namespace} : n ∈ (s.deleteEmptyNamespaces key).2.namespaces.rows ↔
      n ∈ s.namespaces.rows ∧ kept n := by
    rw [hkept, List.mem_filter]
  have names : (s.deleteEmptyNamespaces key).2.namesIn key =
      (((s.namespaces.rows.filter (·.repository = key)).filter kept).map (·.name)) := by
    unfold Store.namesIn Store.namespacesOf
    rw [hkept, List.filter_filter, List.filter_filter]
    simp only [Bool.and_comm]
  rw [names]
  unfold Store.namesIn Store.namespacesOf
  rw [List.filter_map]
  refine congrArg (List.map _) (List.filter_congr fun n hn => ?_)
  obtain ⟨hn, hkey⟩ := List.mem_filter.1 hn
  have hkey : n.repository = key := of_decide_eq_true hkey
  rw [Bool.eq_iff_iff]
  simp only [Function.comp_apply, List.any_eq_true, List.contains_iff_mem]
  rw [← needed]
  constructor
  · intro h
    exact Store.mem_namesIn.2 ⟨n, mem.2 ⟨hn, h⟩, hkey, rfl⟩
  · intro h
    obtain ⟨m, hm, hown, hname⟩ := Store.mem_namesIn.1 h
    obtain ⟨hm, hk⟩ := mem.1 hm
    rwa [hs.namespace_unique hm hn (hown.trans hkey.symm) hname] at hk

/-- Removing what is no longer listed is a function of the view. -/
theorem viewOf_pruned (hs : s.Consistent) (hf : s.Forest) (paths : List String) :
    viewOf (pruned (slugOf owner name) paths s) owner name = (viewOf s owner name).pruned paths := by
  have first : Store.FactRun (slugOf owner name) s
      (s.deleteFilesExcept (slugOf owner name) paths).2 := .single (.deleteFiles s paths)
  obtain ⟨hu, -⟩ := first.consistent hs
  have names := namesIn_deleteEmptyNamespaces hu (first.forest hs hf) (slugOf owner name)
  have contents := Store.deleteEmptyNamespaces_contents hu (slugOf owner name) (slugOf owner name)
  rw [Store.deleteFilesExcept_contents hs] at names contents
  have current := current_of_run (pruned_run (slugOf owner name) paths s) owner name
  unfold viewOf
  rw [current]
  unfold pruned
  rw [names, contents]
  rfl

end Facts

/-! ## Documents -/

/-- The tree of a repository, as text, is seen. -/
theorem treeOf_seen {repository : Repository} {s : Store} (hs : s.Consistent) (hf : s.Forest)
    (order : Order) :
    (treeOf repository s).map (Tree.render order) =
      if (viewOf s repository.owner repository.name).names.isEmpty then
        .error (.notFound repository.name)
      else .ok (documentText order (headingOf repository)
        (viewOf s repository.owner repository.name).names
        (viewOf s repository.owner repository.name).contents) :=
  assemble_render hs hf order (headingOf repository) repository.graphKey

/-- Making a document of a store is making one of the view of it. -/
theorem exported_shown {settings : Settings} {random : String} {repository : Repository}
    {report : Report} {s : Store} (hs : s.Consistent) (hf : s.Forest)
    (hr : repository ∈ s.repositories.rows) (d : Disk) :
    (exported settings random repository report s d).map (fun made => made.1.shown) =
      documentIn settings random repository report (viewOf s repository.owner repository.name) d := by
  have seen := @treeOf_seen repository s hs hf settings.order
  generalize viewOf s repository.owner repository.name = v at seen ⊢
  unfold documentIn exported
  cases htree : treeOf repository s with
  | error fault =>
    rw [htree] at seen
    split at seen
    · next empty =>
      cases seen
      rw [if_pos empty]
      rfl
    · cases seen
  | ok tree =>
    rw [htree] at seen
    split at seen
    · cases seen
    · next nonempty =>
      have text : tree.render settings.order =
          documentText settings.order (headingOf repository) v.names v.contents := Except.ok.inj seen
      rw [if_neg nonempty, ← text]
      simp only [bind, Except.bind, Except.mapError]
      cases outputOf settings random repository (tree.render settings.order) report d with
      | error fault => rfl
      | ok outputPath =>
        obtain ⟨saved, hsaved⟩ := exists_saved hs hr htree (tree.render settings.order) outputPath
        dsimp only
        rw [hsaved]
        rfl

/-- The number of a repository does not show in its document. -/
theorem documentIn_congr {r r' : Repository} (h : headingOf r = headingOf r') (settings : Settings)
    (random : String) (report : Report) (v : View) (d : Disk) :
    documentIn settings random r report v d = documentIn settings random r' report v d := by
  obtain ⟨howner, hname, -⟩ := Heading.mk.inj h
  unfold documentIn
  dsimp only
  rw [h, hname, outputOf_congr howner hname]

/-! ## Generations -/

section Ended

variable {remote : Remote} {settings : Settings} {random owner name : String} {force : Bool}
variable {toStart : Option Nat} {w : World}

/-- The current document, if it is of the latest commit, is seen. -/
theorem freshSnapshot?_seen {s : Store} (hs : s.Consistent) {r : Repository}
    (hr : r ∈ s.repositories.rows) :
    (freshSnapshot? s r).map savedOf =
      (viewOf s r.owner r.name).current.filter (·.commit = r.commit) := by
  unfold freshSnapshot? viewOf Store.currentOf
  rw [hs.repository?_eq hr, Option.bind_some]
  cases s.currentSnapshot? r.id with
  | none => rfl
  | some d =>
    dsimp only [Option.map_some]
    by_cases h : d.commit = r.commit
    · simp [Option.filter, savedOf, h]
    · simp [Option.filter, savedOf, h]

/-- What is described of a known repository, and what is seen of it. -/
theorem comesTo_known {repository : Repository} {u : Store} (hs : w.store.Consistent)
    (known : refreshed remote owner name w.store = .ok (repository, u)) (d : Disk) :
    comesTo remote settings random owner name force toStart (viewOf w.store) d =
      match freshSnapshot? u repository, force with
      | some snapshot, false => .ok (savedOf snapshot).shown
      | _, _ => renewedIn remote settings random toStart { repository with id := 0, version := 0 }
          (viewOf u repository.owner repository.name) d := by
  obtain ⟨draft, hidentity, put⟩ := refreshed_eq_ok.1 known
  obtain ⟨hu, -⟩ := hs.putRepository put
  obtain ⟨-, -, -, -, hmem, -⟩ := Store.putRepository_documents hs put
  have seen := freshSnapshot?_seen hu hmem
  unfold comesTo
  rw [hidentity, ← viewOf_put hs put]
  simp only [bind, Except.bind, described_of_put put hs, Except.mapError]
  rw [← seen]
  cases freshSnapshot? u repository with
  | none => cases force <;> rfl
  | some snapshot => cases force <;> rfl

/-- Where the saved document is not returned, there is to be a new one. -/
theorem comesTo_renewed {repository : Repository} {u : Store} (hs : w.store.Consistent)
    (known : refreshed remote owner name w.store = .ok (repository, u))
    (renewed : force = true ∨ freshSnapshot? u repository = none) :
    comesTo remote settings random owner name force toStart (viewOf w.store) w.disk =
      renewedIn remote settings random toStart { repository with id := 0, version := 0 }
        (viewOf u repository.owner repository.name) w.disk := by
  rw [comesTo_known hs known]
  rcases renewed with rfl | stale
  · cases freshSnapshot? u repository <;> rfl
  · rw [stale]

/-- Where nothing can be stored about the repository, nothing can be described either. -/
theorem comesTo_unknown {fault : Fault} (known : refreshed remote owner name w.store = .error fault) :
    comesTo remote settings random owner name force toStart (viewOf w.store) w.disk =
      .error fault := by
  unfold comesTo
  unfold refreshed at known
  cases hidentity : identityOf remote owner name with
  | error fault =>
    rw [hidentity] at known
    cases known
    rfl
  | ok draft =>
    rw [hidentity] at known
    change (w.store.putRepository draft).mapError Fault.store = _ at known
    cases hput : w.store.putRepository draft with
    | ok put =>
      rw [hput] at known
      cases known
    | error fault =>
      rw [hput] at known
      cases known
      change ((described draft).mapError Fault.store >>= _) = _
      rw [putRepository_error.1 hput]
      rfl

/-- What exporting comes to after the ingestion is what comes of what is seen before it. -/
theorem exported_of_ingested {repository : Repository} {u v : Store} {paths : List String}
    {report : Report} (hs : w.store.Consistent) (hf : w.store.Forest)
    (known : refreshed remote owner name w.store = .ok (repository, u))
    (renewed : force = true ∨ freshSnapshot? u repository = none)
    (listing : listed remote settings repository.owner repository.name = .ok paths)
    (answer : ingestion remote settings repository.owner repository.name toStart = .ok report)
    (facts : Ingested settings.language repository.graphKey
      (remote.text repository.owner repository.name) (started toStart paths) u v) :
    (exported settings random repository report (pruned repository.graphKey paths v) w.disk).map
        (fun made => made.1.shown) =
      comesTo remote settings random owner name force toStart (viewOf w.store) w.disk := by
  obtain ⟨draft, -, put⟩ := refreshed_eq_ok.1 known
  obtain ⟨hu, -⟩ := hs.putRepository put
  have hfu := hf.putRepository put
  obtain ⟨hv, -⟩ := facts.run.consistent hu
  obtain ⟨run, hp, hr⟩ := pruned_known facts hs put paths
  rw [exported_shown hp (run.forest hu hfu) hr, comesTo_renewed hs known renewed]
  unfold renewedIn
  rw [listing, answer]
  have after := @viewOf_pruned v repository.owner repository.name hv (facts.run.forest hu hfu) paths
  rw [viewOf_ingested facts hu hfu] at after
  change documentIn _ _ _ _ (viewOf (pruned (slugOf repository.owner repository.name) paths v) _ _) _ =
    _
  rw [after]
  exact documentIn_congr rfl ..

/-- What a generation answers is what comes of what it sees. -/
theorem Ended.shown {answer : Except Fault Result} {t : Store} {d : Disk}
    (h : Ended remote settings random owner name force toStart w answer t d)
    (hs : w.store.Consistent) (hf : w.store.Forest) :
    answer.map Result.shown =
      comesTo remote settings random owner name force toStart (viewOf w.store) w.disk := by
  cases h with
  | unknown known =>
    rw [comesTo_unknown known]
    rfl
  | reused known fresh free =>
    rw [comesTo_known hs known, fresh, free]
    rfl
  | refused known renewed answer facts =>
    rw [comesTo_renewed hs known renewed]
    unfold renewedIn
    dsimp only
    rw [answer]
    rcases facts with ⟨-, unlisted⟩ | ⟨paths, listing, -⟩
    · rw [unlisted]
      rfl
    · rw [listing]
      rfl
  | unsaved known renewed listing answer facts saved =>
    rw [← exported_of_ingested hs hf known renewed listing answer facts, saved]
    rfl
  | made known renewed listing answer facts saved =>
    rw [← exported_of_ingested hs hf known renewed listing answer facts, saved]
    rfl

end Ended

/-- What a generation answers is what comes of what it sees of its repository, whatever else there is
in the store. -/
theorem perform_shown (g : Generation) {w : World} (hs : w.store.Consistent) (hf : w.store.Forest) :
    (g.perform w).1.map Result.shown = g.comesTo (viewOf w.store) := by
  unfold Generation.perform Generation.comesTo
  cases g.owner with
  | none => rfl
  | some owner =>
    cases g.name with
    | none => rfl
    | some name =>
      dsimp only
      cases hnames : isBlankText owner || isBlankText name with
      | true =>
        simp only [generate, hnames, if_true]
        rfl
      | false =>
        obtain ⟨hresult, -⟩ := generate_named g.remote g.settings g.random g.force g.toStart
          { w with disk := g.disk } hnames
        rw [hresult, if_neg Bool.false_ne_true]
        exact (generateNamed_ended g.remote g.settings g.random owner name g.force g.toStart
          { w with disk := g.disk }).shown hs hf

end CodeOutline.Service
