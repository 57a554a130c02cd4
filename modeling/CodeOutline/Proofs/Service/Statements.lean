import CodeOutline.Proofs.Graph.Emptying
import CodeOutline.Proofs.Graph.Query
import CodeOutline.Proofs.Graph.Refusal
import CodeOutline.Proofs.Graph.Replacement
import CodeOutline.Proofs.Service.Upkeep

/-!
# Single statements of a session

What one writing operation does to the database that a session has come to. Either it is refused, for a
reason that its arguments show, and every query answers what it answered before; or it does what the
store says (`session_mutations`). The facts of a file are replaced as a whole and alone
(`session_replacement`), and the namespaces that no file needs go all together (`session_emptying`).
Children queries answer completely and in order, but repeat what they are asked for in several batches
(`session_children`).
-/

namespace CodeOutline.Service

open CodeOutline.Graph CodeOutline.Ingest

/-- A writing operation fails exactly where it is refused, and then the connection is what it was; else
the store is that of the operation. A new namespace comes into conflict exactly where its key is
there. -/
theorem session_mutations (disk : Files.Disk) (operations : List Operation) :
    let s := (session { disk } operations).store
    let before : Connection := { committed := s }
    (∀ (α : Type) (mutation : Mutation α),
      (Fails (mutation.run before).1 ↔ mutation.Refused s) ∧
        (Fails (mutation.run before).1 → (mutation.run before).2 = before) ∧
        ∀ a, (mutation.run before).1 = .ok a →
          ∃ t, mutation.apply s = .ok (a, t) ∧ (mutation.run before).2 = { committed := t }) ∧
      ∀ (draft : NamespaceDraft) (repository name : String),
        ((Mutation.addNamespace draft).run before).1 = .error (.refused (.conflict repository name)) ↔
          draft.repository = some repository ∧ draft.name = some name ∧
            (s.namespace? repository name).isSome := by
  intro s before
  obtain ⟨hs, -⟩ := session_keeps { disk } operations Store.consistent_empty
  refine ⟨fun α mutation => ?_, fun draft repository name => ?_⟩
  · rw [mutation.run_eq hs, ← mutation.apply_fails_iff]
    cases answer : mutation.apply s with
    | error fault =>
      refine ⟨iff_of_true (fails_error _) (fails_error _), fun _ => rfl, fun a ok => ?_⟩
      cases ok
    | ok out =>
      refine ⟨iff_of_false (not_fails_ok _) (not_fails_ok _), fun h => ?_, fun a ok => ?_⟩
      · exact absurd h (not_fails_ok _)
      · cases ok
        exact ⟨out.2, rfl, rfl⟩
  · rw [Mutation.run_eq hs, ← Store.addNamespace_conflict_iff]
    change (settled s (endingOf (s.addNamespace draft))).1 = _ ↔ _
    cases answer : s.addNamespace draft with
    | error fault => simp [endingOf, Except.mapError, settled]
    | ok out => simp [endingOf, Except.mapError, settled]

/-- A replacement has written two types by the time the second member of the second one turns out to be
neither a method nor a field. Nothing of it is left. -/
theorem session_mutations_of_unknown_kind :
    let operations : List Operation := [.ingest .java "x/y" "A.java" "class A {}"]
    let s := (session {} operations).store
    let draft : FileDraft := ⟨"x/y", some 1, "A.java", "c0ffee"⟩
    let types : List TypeDraft :=
      [⟨"B", [], none, [⟨"size", "field", [], none⟩]⟩,
        ⟨"C", [], none, [⟨"run", "method", [], none⟩, ⟨"C", "constructor", [], none⟩]⟩]
    let outcome := (Mutation.replaceFileFacts draft types).run { committed := s }
    ((Work.writeFacts draft types { committed := s }).2.view.types.rows.map (·.name),
        s.types.rows.map (·.name)) = (["B", "C"], ["A"]) ∧
      Fails outcome.1 ∧ outcome.2 = { committed := s } := by
  intro operations s draft types outcome
  obtain ⟨all, -⟩ := session_mutations {} operations
  obtain ⟨refused, unchanged, -⟩ := all _ (.replaceFileFacts draft types)
  have kind : (Mutation.replaceFileFacts draft types).Refused s :=
    .inr ⟨_, List.mem_cons_of_mem _ (List.mem_singleton_self _), .inr
      ⟨_, List.mem_cons_of_mem _ (List.mem_singleton_self _), .inr (by decide)⟩⟩
  exact ⟨by decide +kernel, refused.2 kind, unchanged (refused.2 kind)⟩

/-- Where the namespace of a file is there, its facts are replaced. -/
theorem session_replacement (disk : Files.Disk) (operations : List Operation) :
    let s := (session { disk } operations).store
    ∀ (key path hash : String) (namespaceId : Id), s.hasNamespace namespaceId →
      ∀ types : List TypeFact, ∃ row t,
        s.replaceFileFacts ⟨key, namespaceId, path, hash⟩ (types.map TypeFact.draft) = .ok (row, t) ∧
          Work.replaceFileFacts ⟨key, namespaceId, path, hash⟩ (types.map TypeFact.draft)
            { committed := s } = (.ok row, { committed := t }) ∧
          s.Replaced t key path hash namespaceId types row := by
  intro s key path hash namespaceId there types
  obtain ⟨hs, -⟩ := session_keeps { disk } operations Store.consistent_empty
  obtain ⟨row, t, ok⟩ := Store.exists_replaceFileFacts there key path hash types
  refine ⟨row, t, ok, ?_, Store.Consistent.replaced hs ok⟩
  rw [replaceFileFacts_settled, ok]
  rfl

/-- A file that an ingestion has stored is replaced by two types of one name, with annotations that
have to be escaped. -/
theorem session_replacement_again :
    let operations : List Operation := [.ingest .java "x/y" "A.java" "class A {}"]
    let s := (session {} operations).store
    let type : TypeFact :=
      ⟨"B", ["\"\\\n", "\u00e9\x01", "\"\\\n"], some "", [⟨"b", .method, ["\t"], none⟩]⟩
    let types := [type, type].map TypeFact.draft
    ∃ row t, s.replaceFileFacts ⟨"x/y", some 1, "A.java", "c0ffee"⟩ types = .ok (row, t) ∧
      row.version = 1 ∧ t.readFacts row.id = [some type, some type] := by
  intro operations s type types
  obtain ⟨row, t, ok, -, replaced⟩ := @session_replacement {} operations "x/y" "A.java" "c0ffee" 1
    (by decide +kernel) [type, type]
  have there : ((session {} operations).store.file? "x/y" "A.java").map (·.version) = some 0 := by
    decide +kernel
  obtain ⟨old, found, version⟩ := Option.map_eq_some_iff.1 there
  refine ⟨row, t, ok, ?_, replaced.facts⟩
  rw [(replaced.again old found).2, version]

/-- After every session that goes by names, for any repository: the removal of its empty namespaces ends
after finitely many rounds, each of which removes something. What they remove is each namespace of the
repository that no file lies in or below, once; their number is the answer. Documents lose their links
to those namespaces, and nothing else has changed; every reference is still good. Once more, it removes
nothing. -/
theorem session_emptying (disk : Files.Disk) {operations : List Operation}
    (named : ∀ o ∈ operations, o.goesByNames) :
    let s := (session { disk } operations).store
    ∀ key, ∃ rounds t, Store.Emptied key s rounds t ∧ (∀ round ∈ rounds, round ≠ []) ∧
      let gone := rounds.flatten
      (gone.Nodup ∧ ∀ n, n ∈ gone ↔
        n ∈ s.namespaces.rows ∧ n.repository = key ∧ ¬ s.Occupied n) ∧
      t = s.dropNamespaces (gone.map (·.id)) ∧
      (∀ n, n ∈ t.namespaces.rows ↔ n ∈ s.namespaces.rows ∧ n ∉ gone) ∧ t.Sound ∧
      s.deleteEmptyNamespaces key = (gone.length, t) ∧
      Work.deleteEmptyNamespaces key { committed := s } = (.ok gone.length, { committed := t }) ∧
      Work.deleteEmptyNamespaces key { committed := t } = (.ok 0, { committed := t }) := by
  intro s key
  have sound : s.Sound := session_sound named ⟨Store.consistent_empty, Store.forest_empty⟩
  obtain ⟨rounds, emptied, number⟩ := Store.exists_emptied s key
  refine ⟨rounds, _, emptied, emptied.nonempty, ⟨emptied.nodup_gone sound, emptied.mem_gone sound⟩,
    emptied.store, fun n => ?_, ?_⟩
  · have known : ∀ m ∈ rounds.flatten, m ∈ s.namespaces.rows := fun m hm =>
      ((emptied.mem_gone sound m).1 hm).1
    rw [emptied.store]
    exact sound.consistent.mem_dropNamespaces known
  have run : Store.FactRun key s (s.deleteEmptyNamespaces key).2 := .single (.deleteNamespaces s)
  refine ⟨run.sound sound, ?_, ?_, ?_⟩
  · rw [← number]
  · rw [deleteEmptyNamespaces_settled, ← number]
    rfl
  · have none := Store.emptyNamespaces_deleteEmptyNamespaces s key
    generalize (s.deleteEmptyNamespaces key).2 = t at none ⊢
    rw [deleteEmptyNamespaces_settled, Store.deleteEmptyNamespaces, dif_pos none]
    rfl

/-- A branch of two goes in two rounds, and a document that shows its end loses that link. The branch of
another repository stays. -/
theorem session_emptying_of_branch :
    let operations : List Operation :=
      [.putRepository ⟨"acme", "tool", "c0ffee", none, "main"⟩,
        .ingest .java "acme/tool" "A.java" "package com.acme;\nclass A {}",
        .getOrCreate "acme/tool" (some "com.old.part") [] [],
        .getOrCreate "acme/other" (some "old.part") [] [],
        .saveSnapshot ⟨some 1, "c0ffee", "", none, [4]⟩]
    let s := (session {} operations).store
    ∃ t, Work.deleteEmptyNamespaces "acme/tool" { committed := s } = (.ok 2, { committed := t }) ∧
      (t.namesIn "acme/tool", t.namesIn "acme/other") = (["com", "com.acme"], ["old", "old.part"]) ∧
      (s.snapshots.rows.map (·.namespaceIds), t.snapshots.rows.map (·.namespaceIds)) =
        ([[4]], [[]]) ∧
      Work.deleteEmptyNamespaces "acme/tool" { committed := t } = (.ok 0, { committed := t }) := by
  intro operations s
  obtain ⟨rounds, t, -, -, -, -, -, -, removed, first, again⟩ :=
    @session_emptying {} operations (by decide) "acme/tool"
  have number : rounds.flatten.length = 2 := by
    have : (s.deleteEmptyNamespaces "acme/tool").1 = 2 := by decide +kernel
    rwa [removed] at this
  obtain rfl : (s.deleteEmptyNamespaces "acme/tool").2 = t := congrArg Prod.snd removed
  rw [number] at first
  refine ⟨_, first, ?_, ?_, again⟩ <;> decide +kernel

/-- After every session, for any numbers: each children query answers with one entry for each parent, in
the order in which the parents first appear, whose list is the complete one, by ascending number or
position, once for each batch that the parent stands in. That is what one query for all parents would
answer exactly where no parent that has children stands in two batches. -/
theorem session_children (disk : Files.Disk) (operations : List Operation) :
    let s := (session { disk } operations).store
    ∀ ids : List Id,
      ChildQuery.files.Answers s.files.rows ids (s.filesFor ids) ∧
        ChildQuery.types.Answers s.types.rows ids (s.typesFor ids) ∧
        ChildQuery.members.Answers s.members.rows ids (s.membersFor ids) := by
  intro s ids
  obtain ⟨hs, -⟩ := session_keeps { disk } operations Store.consistent_empty
  exact ⟨hs.filesFor_answers ids, hs.typesFor_answers ids, hs.membersFor_answers ids⟩

/-- A namespace that is asked for 501 times stands in two batches. Its only file is listed twice, and
one query for all of them would list it once. -/
theorem repeated_namespace_lists_file_twice :
    let operations : List Operation :=
      [.addNamespace ⟨"x/y", "a", none⟩, .replaceFileFacts ⟨"x/y", some 1, "A.java", "h"⟩ []]
    let s := (session {} operations).store
    let ids : List Id := List.replicate 501 1
    (s.filesFor ids).map (fun entry => (entry.1, entry.2.map (·.path))) =
        [(1, ["A.java", "A.java"])] ∧
      s.filesFor ids ≠ ChildQuery.files.single s.files.rows ids := by
  intro operations s ids
  have consistent : s.Consistent := (session_keeps {} operations Store.consistent_empty).1
  have twice : batchesWith ids 1 = 2 := by decide +kernel
  have there : s.files.rows.map (fun f => (f.namespaceId, f.path)) = [(1, "A.java")] := by
    decide +kernel
  constructor
  · decide +kernel
  · intro same
    obtain ⟨f, hf, own⟩ := List.mem_map.1 (there ▸ List.mem_singleton_self _)
    have once := (consistent.filesFor_answers ids).agrees.1 same 1 (by decide +kernel)
      ⟨f, hf, congrArg Prod.fst own⟩
    rw [twice] at once
    cases once

end CodeOutline.Service
