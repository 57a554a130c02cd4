import CodeOutline.Proofs.Graph.Contention
import CodeOutline.Proofs.Graph.Lineage
import CodeOutline.Proofs.Service.Made
import CodeOutline.Proofs.Service.Session

/-!
# Namespaces over a session

Operations that say where a namespace or a file belongs by names keep the namespaces of every
repository a forest, in whatever order they come and whatever becomes of them. Only the two statements
that take numbers as they are given can break it: one puts a namespace below any other, the other puts
a file into the namespace of any repository.

`perform_sound` says what one operation keeps, `session_sound` what holds after a session, and
`session_lineages` what that means for each namespace and each file; after a new document no namespace
is left over.
-/

namespace CodeOutline.Service

open CodeOutline.Graph CodeOutline.Ingest CodeOutline.Remote CodeOutline.Text

/-- The operation goes by names: it is not one of those that take the number of a parent or of a
namespace as it is given. -/
def Operation.goesByNames : Operation → Bool
  | addNamespace _ | replaceFileFacts .. => false
  | _ => true

theorem ingestText_sound {language : Language} {repository : String}
    (hkey : isBlankText repository = false) (path text : String) {p : Progress} (hs : p.store.Sound) :
    (p.ingestText language repository path text).2.store.Sound := by
  cases hread : readingOf language text with
  | none => rwa [ingestText_unstorable hkey p hread]
  | some reading => exact (ingestText_stores hkey p hread).run.sound hs

/-- An operation that goes by names keeps the store consistent and a forest, whether it succeeds or
fails. -/
theorem perform_sound {operation : Operation} (named : operation.goesByNames) {w : World}
    (hs : w.store.Sound) : (operation.perform w).store.Sound := by
  refine ⟨(perform_keeps w operation hs.consistent).1, ?_⟩
  cases operation with
  | addNamespace | replaceFileFacts => cases named
  | putRepository draft =>
    simp only [Operation.perform, World.after]
    split
    · next ok => exact hs.forest.putRepository ok
    · exact hs.forest
  | saveSnapshot draft =>
    simp only [Operation.perform, World.after]
    split
    · next ok => exact hs.forest.saveSnapshot ok
    · exact hs.forest
  | deleteFilesExcept key keep =>
    exact (Store.FactStep.deleteFiles w.store keep).forest hs.consistent hs.forest
  | deleteEmptyNamespaces key =>
    exact (Store.FactStep.deleteNamespaces w.store).forest hs.consistent hs.forest
  | getOrCreate key name rivals vanishing =>
    exact ((Contention.faithful key).getOrCreate_sound name (d := ⟨w.store, rivals, vanishing⟩)
      hs).forest
  | ingest language key path text =>
    cases hkey : isBlankText key with
    | true =>
      simp only [Operation.perform, Progress.ingest, hkey, if_true]
      exact hs.forest
    | false =>
      simp only [Operation.perform, Progress.ingest, hkey, Bool.false_eq_true, if_false]
      exact (ingestText_sound hkey path text hs).forest
  | ingestAll language key paths fetch toStart =>
    cases hkey : isBlankText key with
    | true =>
      simp only [Operation.perform, Progress.ingestAll, Progress.ingestBatch, hkey, if_true]
      exact hs.forest
    | false => exact ((ingestAll_ingested hkey w.toProgress paths toStart).run.sound hs).forest
  | generate remote settings random owner name force toStart =>
    exact (generate_generated remote settings random owner name force toStart w).forest hs.consistent
      hs.forest

theorem session_sound {operations : List Operation} (named : ∀ o ∈ operations, o.goesByNames)
    {w : World} (hs : w.store.Sound) : (session w operations).store.Sound := by
  induction operations generalizing w with
  | nil => exact hs
  | cons operation rest ih =>
    obtain ⟨first, others⟩ := List.forall_mem_cons.1 named
    exact ih others (perform_sound first hs)

/-- After every session that goes by names, for any repositories: each namespace has a name of segments
and hangs below the older namespace of its repository that has all its segments but the last, and its
lineage leads up to a single segment; each file lies in a namespace of its own repository. After a
further generation that makes a new document, each namespace of its repository is in the lineage of one
that a file lies in. -/
theorem session_lineages (disk : Files.Disk) {operations : List Operation}
    (named : ∀ o ∈ operations, o.goesByNames) :
    let w := session { disk } operations
    (∀ n ∈ w.store.namespaces.rows, ∃ segments, IsSegmented n.name segments ∧
      (n.parent = none ↔ segments.length = 1) ∧
      (segments.length ≠ 1 → ∃ m ∈ w.store.namespaces.rows, n.parent = some m.id ∧
        m.repository = n.repository ∧ m.name = joinWith "." segments.dropLast ∧ m.id < n.id) ∧
      ∃ line, w.store.Lineage n line) ∧
    (∀ f ∈ w.store.files.rows, ∃ n ∈ w.store.namespaces.rows,
      n.id = f.namespaceId ∧ n.repository = f.repository) ∧
    ∀ (g : Generation) (result : Result), (g.perform w).1 = .ok result → result.reused = false →
      let t := (g.perform w).2.store
      ∀ owner name, g.AsksFor owner name → ∀ n ∈ t.namespaces.rows,
        n.repository = slugOf owner name → ∃ f ∈ t.files.rows, ∃ m ∈ t.namespaces.rows,
          m.id = f.namespaceId ∧ ∃ line, t.Lineage m line ∧ n ∈ line := by
  intro w
  have sound : w.store.Sound := session_sound named ⟨Store.consistent_empty, Store.forest_empty⟩
  refine ⟨fun n hn => ?_, sound.forest.ownFiles, ?_⟩
  · obtain ⟨segments, made⟩ := exists_segments (sound.forest.wellFormed n hn)
    obtain ⟨top, below⟩ := sound.forest.parent_of_segments hn made
    exact ⟨segments, made, top, below, sound.forest.exists_lineage hn⟩
  · intro g result ok new t owner name asked n hn own
    obtain ⟨repository, paths, report, u, v, made⟩ := exists_made ok new
    obtain ⟨-, -, -, ht⟩ := made.consistent sound.consistent
    obtain ⟨-, -, hft⟩ := made.forest sound.consistent sound.forest
    -- The remote has one answer, so the repository that was asked for is the one that was stored.
    obtain ⟨draft, known, howner, hname⟩ := asked
    obtain ⟨⟨draft', known', howner', hname'⟩, -⟩ := made.asks sound.consistent
    cases known.symm.trans known'
    cases howner.symm.trans howner'
    cases hname.symm.trans hname'
    exact hft.exists_file_below ht made.emptyNamespaces hn own

/-- A namespace that nothing lies in, made before the generation by a call that a rival beat to its
parent, is gone after it; the chain of the file is there. -/
theorem session_lineages_of_rival :
    let operations : List Operation :=
      [.getOrCreate "acme/tool" (some "old.part") ["old"] [], .ingest .java "x/y" "A.java" "class A {}"]
    let g : Generation := .ofFiles "c0ffee" [("A.java", "package com.acme;\nclass A {}")]
    let w := session {} operations
    (w.store.namesIn "acme/tool", (g.perform w).2.store.namesIn "acme/tool") =
        (["old", "old.part"], ["com", "com.acme"]) ∧
      ∀ n ∈ (g.perform w).2.store.namespaces.rows, n.repository = slugOf "acme" "tool" →
        ∃ f ∈ (g.perform w).2.store.files.rows, ∃ m ∈ (g.perform w).2.store.namespaces.rows,
          m.id = f.namespaceId ∧ ∃ line, (g.perform w).2.store.Lineage m line ∧ n ∈ line := by
  intro operations g
  have new : ((g.perform (session {} operations)).1.toOption.map (·.reused)) = some false := by
    decide +kernel
  obtain ⟨result, ok, new⟩ := exists_new new
  have asked : g.AsksFor "acme" "tool" := ⟨_, rfl, rfl, rfl⟩
  obtain ⟨-, -, below⟩ := @session_lineages {} operations (by decide)
  refine ⟨?_, below g result ok new "acme" "tool" asked⟩
  decide +kernel

end CodeOutline.Service
