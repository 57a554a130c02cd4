import CodeOutline.Proofs.Ingest.Delivery
import CodeOutline.Proofs.Service.Session

/-!
# A batch in a session

Whatever a session has come to, a batch of files whose fetches answer or fail ends with a report, also
when it is told to stop halfway. Its files are told apart by their place in the batch, not by their
paths: a path may come again, with another text or with none.
-/

namespace CodeOutline.Service

open CodeOutline.Graph CodeOutline.Ingest CodeOutline.Remote CodeOutline.Text

/-- After every session, for a repository with a name and any files whose fetches answer or fail, told to
stop at any time: the batch has a report. What becomes of a file that is started is what becomes of it
alone in an empty store; the others come after them and are skipped. A path has just what was stored for
it last, and all rows of a path that nothing was stored for are as they were, in every repository. -/
theorem session_batch (disk : Files.Disk) (operations : List Operation) (language : Language)
    {key : String} (named : isBlankText key = false) {deliveries : List Delivery}
    (foreseen : ∀ d ∈ deliveries, d.Foreseen) (toStart : Option Nat) :
    let p := (session { disk } operations).toProgress
    let answer := p.ingestBatch language key deliveries toStart
    let t := answer.2.store
    let ran := started toStart deliveries
    ∃ outcome : Delivery → Outcome,
      (∀ d ∈ deliveries, (outcome d).path = d.path ∧ (outcome d).isSkipped = false ∧
        (Progress.ingestBatch {} language key [d] none).1 = .ok ⟨key, [outcome d]⟩) ∧
      answer.1 = .ok ⟨key, ran.map outcome ++
        (deliveries.drop ran.length).map fun d => ⟨d.path, .skipped⟩⟩ ∧
      (∀ before d after, ran = before ++ d :: after → (outcome d).isStored →
        (∀ e ∈ after, e.path = d.path → (outcome e).isStored = false) →
        ∃ text types, d.call.result = .ok text ∧ language.typesOf text = .ok types ∧
          t.stored? key d.path =
            some ⟨Sha256.hex text, d.path, namespaceOf language text, types⟩) ∧
      ∀ other place,
        (∀ d ∈ ran, other = key → d.path = place → (outcome d).isStored = false) →
        t.rowsAt other place = p.store.rowsAt other place := by
  intro p answer t ran
  obtain ⟨hs, -⟩ := session_keeps { disk } operations Store.consistent_empty
  have delivered : Delivered language key ran p.store t :=
    ingestBatch_delivered named p deliveries toStart
  have unstored (d : Delivery) : (d.outcome language).isStored = false → d.storable? language = none := by
    intro h
    rwa [d.isStored_outcome, Option.isSome_eq_false_iff, Option.isNone_iff_eq_none] at h
  refine ⟨Delivery.outcome language, fun d hd => ?_, ingestBatch_foreseen named p foreseen toStart,
    ?_, ?_⟩
  · exact ⟨d.path_outcome, (foreseen d hd).isSkipped, ingestBatch_alone named (foreseen d hd)⟩
  · intro before d after order stored last
    rw [d.isStored_outcome] at stored
    obtain ⟨⟨text, reading⟩, storable⟩ := Option.isSome_iff_exists.1 stored
    obtain ⟨fetched, types, place⟩ := d.of_storable storable
    rw [order] at delivered
    have entry := delivered.stored?_of_last hs storable fun e he here => unstored e (last e he here)
    rw [place] at entry
    exact ⟨text, reading.types, fetched, types, entry⟩
  · intro other place none
    have untouched := delivered.untouched hs fun d hd own here => unstored d (none d hd own here)
    exact untouched.2

/-- One path comes three times: with a text, with another text, and with one that is no source. Another
path cannot be fetched, and the last file is not started. -/
theorem session_batch_of_repeated_path :
    let operations : List Operation := [.ingest .java "x/y" "B.java" "class B {}"]
    let first : Delivery := ⟨"A.java", .ofExcept (.ok "class A {}")⟩
    let second : Delivery := ⟨"A.java", .ofExcept (.ok "package com.acme;\nclass A2 {}")⟩
    let lost : Delivery := ⟨"B.java", .failFetch (.reported "gone")⟩
    let broken : Delivery := ⟨"A.java", .ofExcept (.ok "class")⟩
    let late : Delivery := ⟨"C.java", .ofExcept (.ok "class C {}")⟩
    let p := (session { disk := {} } operations).toProgress
    let answer := p.ingestBatch .java "x/y" [first, second, lost, broken, late] (some 4)
    (answer.1.toOption.map fun report => report.outcomes.map fun o => (o.path, o.typeCount, o.isSkipped)) =
        some [("A.java", 1, false), ("A.java", 1, false), ("B.java", 0, false), ("A.java", 0, false),
          ("C.java", 0, true)] ∧
      ((answer.2.store.stored? "x/y" "A.java").map fun e => (e.content.namespaceName, e.hash)) =
        some ("com.acme", Sha256.hex "package com.acme;\nclass A2 {}") ∧
      answer.2.store.rowsAt "x/y" "B.java" = p.store.rowsAt "x/y" "B.java" := by
  intro operations first second lost broken late p answer
  have foreseen : ∀ d ∈ [first, second, lost, broken, late], d.Foreseen := by
    simp [first, second, lost, broken, late, Delivery.Foreseen, Call.ofExcept, Call.failFetch, Call.fail]
  obtain ⟨outcome, alone, -, last, rows⟩ :=
    @session_batch {} operations .java "x/y" (by decide) _ foreseen (some 4)
  have stored {d : Delivery} (hd : d ∈ [first, second, lost, broken, late]) {b : Bool}
      (h : ((Progress.ingestBatch {} .java "x/y" [d] none).1.toOption.map
        fun report => report.outcomes.map (·.isStored)) = some [b]) : (outcome d).isStored = b := by
    rw [(alone d hd).2.2] at h
    simpa [Except.toOption] using h
  have storedSecond : (outcome second).isStored = true := stored (by simp) (by decide +kernel)
  have lostUnstored : (outcome lost).isStored = false := stored (by simp) (by decide +kernel)
  have brokenUnstored : (outcome broken).isStored = false := stored (by simp) (by decide +kernel)
  refine ⟨by decide +kernel, ?_, ?_⟩
  · obtain ⟨text, types, fetched, -, entry⟩ := last [first] second [lost, broken] rfl storedSecond
      (by simp [lostUnstored, brokenUnstored])
    have same : "package com.acme;\nclass A2 {}" = text := Except.ok.inj fetched
    rw [← same] at entry
    have place : namespaceOf .java "package com.acme;\nclass A2 {}" = "com.acme" := by decide +kernel
    rw [entry, Option.map_some, place]
  · have none : ∀ d ∈ [first, second, lost, broken], d.path = "B.java" → (outcome d).isStored = false := by
      intro d hd here
      simp only [List.mem_cons, List.not_mem_nil, or_false] at hd
      have apart : "A.java" ≠ "B.java" := by decide
      rcases hd with rfl | rfl | rfl | rfl
      · exact absurd here apart
      · exact absurd here apart
      · exact lostUnstored
      · exact absurd here apart
    subst answer
    subst p
    exact rows "x/y" "B.java" fun d hd _ here => none d hd here

end CodeOutline.Service
