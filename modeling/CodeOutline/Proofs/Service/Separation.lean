import CodeOutline.Proofs.Graph.Alone
import CodeOutline.Proofs.Service.View

/-!
# Repositories do not share anything

A generation writes rows of the repository that it asks for and of no other one, and it reads no rows
of others either. For the first, `Ended.written` lists what a generation writes: the metadata, any
number of statements for the repository's key, and a document that links to namespaces of that key. So
documents link to namespaces of their own repositories after every history (`history_ownLinks`), which
is what keeps the documents of other repositories as they are when namespaces go. For the second, the
answer is computed from the view of the one repository, and the view is the same on a store that has no
other rows.
-/

namespace CodeOutline.Service

open CodeOutline.Files CodeOutline.Graph CodeOutline.Ingest CodeOutline.Remote CodeOutline.Text

/-! ## What a generation writes -/

section Written

variable {remote : Remote} {settings : Settings} {random owner name : String} {force : Bool}
variable {toStart : Option Nat} {w : World} {answer : Except Fault Result} {t : Store} {d : Disk}

/-- Nothing is written, or the metadata, then facts under the key of the repository, then perhaps a
document of it. -/
theorem Ended.written (h : Ended remote settings random owner name force toStart w answer t d)
    (hs : w.store.Consistent) :
    t = w.store ∨ ∃ draft repository u v, identityOf remote owner name = .ok draft ∧
      w.store.putRepository draft = .ok (repository, u) ∧ Store.FactRun repository.graphKey u v ∧
      (t = v ∨ ∃ document row, v.saveSnapshot document = .ok (row, t) ∧
        document.repositoryId = some repository.id ∧
        ∀ i ∈ document.namespaceIds, ∃ n ∈ v.namespaces.rows, n.id = i ∧
          n.repository = repository.graphKey) := by
  cases h with
  | unknown => exact .inl rfl
  | reused known =>
    obtain ⟨draft, hidentity, put⟩ := refreshed_eq_ok.1 known
    exact .inr ⟨draft, _, _, _, hidentity, put, .refl, .inl rfl⟩
  | refused known _ _ facts =>
    obtain ⟨draft, hidentity, put⟩ := refreshed_eq_ok.1 known
    refine .inr ⟨draft, _, _, _, hidentity, put, ?_, .inl rfl⟩
    rcases facts with ⟨rfl, -⟩ | ⟨paths, -, ingested⟩
    · exact .refl
    · exact ingested.run
  | unsaved known _ _ _ facts =>
    obtain ⟨draft, hidentity, put⟩ := refreshed_eq_ok.1 known
    exact .inr ⟨draft, _, _, _, hidentity, put, facts.run.trans (pruned_run ..), .inl rfl⟩
  | @made repository u v _ paths _ _ known _ _ _ facts saved =>
    obtain ⟨draft, hidentity, put⟩ := refreshed_eq_ok.1 known
    obtain ⟨tree, outputPath, row, htree, -, document, -⟩ := exported_eq_ok.1 saved
    obtain ⟨run, hv, -⟩ := pruned_known facts hs put paths
    refine .inr ⟨draft, _, _, _, hidentity, put, run, .inr ⟨_, row, document, rfl, ?_⟩⟩
    intro i hi
    change i ∈ tree.namespaces.map (·.node.id) at hi
    rw [treeOf_ok hv htree] at hi
    obtain ⟨n, hn, rfl⟩ := List.mem_map.1 hi
    obtain ⟨hn, hkey⟩ := List.mem_filter.1 hn
    exact ⟨n, hn, rfl, of_decide_eq_true hkey⟩

theorem Ended.ownLinks (h : Ended remote settings random owner name force toStart w answer t d)
    (hs : w.store.Consistent) (links : w.store.OwnLinks) : t.OwnLinks := by
  rcases h.written hs with rfl | ⟨draft, repository, u, v, -, put, run, rest⟩
  · exact links
  · have hv := run.ownLinks (links.putRepository hs put)
    rcases rest with rfl | ⟨document, row, saved, hid, own⟩
    · exact hv
    · obtain ⟨-, -, -, -, hmem, -⟩ := Store.putRepository_documents hs put
      rw [← run.repositories] at hmem
      exact hv.saveSnapshot hmem hid saved own

/-- Only rows of the repository that is written to change. -/
theorem Ended.rowsOf (h : Ended remote settings random owner name force toStart w answer t d)
    (hs : w.store.Consistent) (links : w.store.OwnLinks) {other another : String}
    (elsewhere : ∀ draft o n, identityOf remote owner name = .ok draft → draft.owner = some o →
      draft.name = some n → (o, n) ≠ (other, another) ∧ slugOf o n ≠ slugOf other another) :
    t.rowsOf other another = w.store.rowsOf other another := by
  rcases h.written hs with rfl | ⟨draft, repository, u, v, hidentity, put, run, rest⟩
  · rfl
  · obtain ⟨howner, hname, -, -, hmem, -⟩ := Store.putRepository_documents hs put
    obtain ⟨keys, slugs⟩ := elsewhere draft _ _ hidentity howner hname
    obtain ⟨hu, -⟩ := hs.putRepository put
    have facts : v.rowsOf other another = w.store.rowsOf other another := by
      rw [run.rowsOf hu (links.putRepository hs put) slugs]
      exact Store.putRepository_rowsOf hs put keys
    rcases rest with rfl | ⟨document, row, saved, hid, -⟩
    · exact facts
    · rw [← run.repositories] at hmem
      rw [Store.saveSnapshot_rowsOf (run.consistent hu).1 hmem hid saved keys]
      exact facts

end Written

/-! ## Generations -/

section Generations

variable {g : Generation} {w : World}

theorem perform_ownLinks (hs : w.store.Consistent) (links : w.store.OwnLinks) :
    (g.perform w).2.store.OwnLinks := by
  rcases generate_ended g.remote g.settings g.random g.owner g.name g.force g.toStart
      { w with disk := g.disk } with ⟨-, -, same, -⟩ | ⟨o, n, -, -, -, ended⟩
  · unfold Generation.perform
    rw [same]
    exact links
  · exact ended.ownLinks hs links

/-- Documents link to namespaces of their own repositories, at any time. -/
theorem history_ownLinks (generations : List Generation) :
    (history generations).world.store.OwnLinks := by
  induction generations using List.reverseRecOn with
  | nil => exact Store.ownLinks_empty
  | append_singleton generations g ih =>
    rw [history_snoc]
    exact perform_ownLinks (history_recorded generations).consistent ih

/-- With the hosting service, a generation asks for the repository of its own names. -/
theorem Generation.asksFor_ofClient {c : Client} {net : Network} {owner name : String}
    (remote : g.remote = .ofClient c net) (h : g.AsksFor owner name) :
    g.owner = some owner ∧ g.name = some name := by
  obtain ⟨draft, known, howner, hname⟩ := h
  rw [remote] at known
  obtain ⟨o, n⟩ := requested_ofClient known
  exact ⟨o.symm.trans howner, n.symm.trans hname⟩

/-- Only rows of the repository that is asked for change. -/
theorem perform_rowsOf (hs : w.store.Consistent) (links : w.store.OwnLinks) {other another : String}
    (elsewhere : ∀ o n, g.AsksFor o n →
      (o, n) ≠ (other, another) ∧ slugOf o n ≠ slugOf other another) :
    (g.perform w).2.store.rowsOf other another = w.store.rowsOf other another := by
  rcases generate_ended g.remote g.settings g.random g.owner g.name g.force g.toStart
      { w with disk := g.disk } with ⟨-, -, same, -⟩ | ⟨o, n, howner, hname, hnames, ended⟩
  · unfold Generation.perform
    rw [same]
  · refine ended.rowsOf hs links fun draft _ _ known ho hn => elsewhere _ _ ⟨draft, ?_, ho, hn⟩
    simp only [howner, hname, requested, hnames, Bool.false_eq_true, if_false, known]

/-- Nothing is seen but the repository that is asked for. -/
theorem comesTo_congr {views views' : String → String → View}
    (same : ∀ o n, g.AsksFor o n → views o n = views' o n) : g.comesTo views = g.comesTo views' := by
  unfold Generation.comesTo
  cases howner : g.owner with
  | none => rfl
  | some owner =>
    cases hname : g.name with
    | none => rfl
    | some name =>
      dsimp only
      cases hnames : isBlankText owner || isBlankText name with
      | true => rw [if_pos rfl, if_pos rfl]
      | false =>
        rw [if_neg Bool.false_ne_true, if_neg Bool.false_ne_true]
        unfold comesTo
        simp only [bind, Except.bind]
        cases known : identityOf g.remote owner name with
        | error fault => rfl
        | ok draft =>
          dsimp only
          cases hr : described draft with
          | error fault => rfl
          | ok r =>
            obtain ⟨ho, hn⟩ := described_names hr
            have asks : g.AsksFor r.owner r.name := by
              refine ⟨draft, ?_, ho, hn⟩
              simp only [howner, hname, requested, hnames, Bool.false_eq_true, if_false, known]
            simp only [Except.mapError]
            rw [same _ _ asks]

end Generations

/-- After any generations, one more for a repository changes no row of another one, whatever it comes
to. And what it comes to is the same on a store that has no other rows than those of its repository.
That owners have no slash keeps repositories apart: a slash in an owner could be that of a slug. With
the hosting service the repository is the one of the names that the generation is asked with
(`Generation.asksFor_ofClient`). -/
theorem history_separation (generations : List Generation) (g : Generation)
    {owner name owner' name' : String} (howner : '/' ∉ owner.toList) (howner' : '/' ∉ owner'.toList)
    (different : (owner, name) ≠ (owner', name'))
    (asks : ∀ o n, g.AsksFor o n → o = owner ∧ n = name) :
    (g.perform (history generations).world).2.store.rowsOf owner' name' =
        (history generations).world.store.rowsOf owner' name' ∧
      ∀ w : World, w.store.Consistent →
        w.store.rows = (history generations).world.store.rowsOf owner name →
        (g.perform w).1.map Result.shown =
          (g.perform (history generations).world).1.map Result.shown := by
  have hs := (history_recorded generations).consistent
  have hf := history_forest generations
  have links := history_ownLinks generations
  constructor
  · refine perform_rowsOf hs links fun o n asked => ?_
    obtain ⟨rfl, rfl⟩ := asks o n asked
    refine ⟨different, fun e => different ?_⟩
    obtain ⟨ho, hn⟩ := slugOf_injective howner howner' e
    exact Prod.ext ho hn
  · intro w hw rows
    have hfw : w.store.Forest := Store.Forest.of_rows rows hf
    rw [perform_shown g hw hfw, perform_shown g hs hf]
    refine comesTo_congr fun o n asked => ?_
    obtain ⟨rfl, rfl⟩ := asks o n asked
    unfold viewOf
    rw [Store.currentOf_of_rows rows, Store.namesIn_of_rows rows,
      Store.contents_of_rows rows hs hf hw]

/-! ## Two owners of one name -/

/-- A repository of another owner, with the same name and a file at the same path. -/
def namesake : Generation :=
  { Generation.ofFiles "f00d" [("A.java", "package a.b;\nclass Other { int x; }")] with
    owner := some "globex" }

def latecomer : Generation := Generation.ofFiles "c0ffee" [("A.java", "package a.b;\nclass A {}")]

/-- What is in the store once the repository of the same name has been generated, without its rows. -/
def beforeLatecomer : World :=
  { (history [namesake]).world with store := (history [namesake]).world.store.alone "acme" "tool" }

/-- The repository of the same name is generated first. It keeps its rows, and the second generation has
the answer that it has on its own. -/
theorem history_separation_of_namesake :
    (latecomer.perform (history [namesake]).world).2.store.rowsOf "globex" "tool" =
        (history [namesake]).world.store.rowsOf "globex" "tool" ∧
      ((history [namesake]).world.store.rowsOf "globex" "tool").members.length = 1 ∧
      (latecomer.perform beforeLatecomer).1.map Result.shown =
        (latecomer.perform (history [namesake]).world).1.map Result.shown := by
  have asks : ∀ o n, latecomer.AsksFor o n → o = "acme" ∧ n = "tool" := fun _ _ =>
    Generation.asksFor_ofFiles
  have different : ("acme", "tool") ≠ ("globex", "tool") := by decide
  obtain ⟨rows, same⟩ := history_separation [namesake] latecomer (by decide) (by decide) different asks
  have members : ((history [namesake]).world.store.rowsOf "globex" "tool").members.length = 1 := by
    decide +kernel
  have hs := (history_recorded [namesake]).consistent
  have alone : beforeLatecomer.store.Consistent :=
    hs.alone (history_forest [namesake]) (history_ownLinks [namesake]) "acme" "tool"
  exact ⟨rows, members, same beforeLatecomer alone (Store.rows_alone ..)⟩

end CodeOutline.Service
