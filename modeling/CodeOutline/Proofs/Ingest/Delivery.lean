import CodeOutline.Proofs.Graph.Replacement
import CodeOutline.Proofs.Ingest.Stored

/-!
# Batches file by file

The files of a batch have nothing to do with each other, also where a path stands in the batch several
times and is fetched with another text each time. What becomes of a file is what becomes of it alone in
an empty store (`ingestBatch_alone`); its path has what was stored for it last
(`Delivered.stored?_of_last`); and a path that nothing is stored for keeps all its rows
(`Delivered.untouched`).
-/

namespace CodeOutline.Graph.Store

variable {s t : Store} {key path : String}

/-- The row of the file at a path, with the rows of its types and of their members. -/
def rowsAt (s : Store) (key path : String) : Option (SourceFile × List (TypeRow × List MemberRow)) :=
  (s.file? key path).map fun f => (f, (s.typesIn f.id).map fun u => (u, s.membersIn u.id))

theorem rowsAt_of_frame (files : t.files = s.files) (types : t.types = s.types)
    (members : t.members = s.members) : t.rowsAt key path = s.rowsAt key path := by
  unfold rowsAt file? typesIn membersIn
  rw [files, types, members]

/-- A replacement at one path leaves the rows of all others alone. -/
theorem Replaced.rowsAt {hash other place : String} {namespaceId : Id} {types : List TypeFact}
    {row : SourceFile} (h : s.Replaced t key path hash namespaceId types row) (ht : t.Consistent)
    (elsewhere : ¬ (other = key ∧ place = path)) : t.rowsAt other place = s.rowsAt other place := by
  have same := h.otherFiles other place elsewhere
  unfold Store.rowsAt
  rw [same]
  cases there : s.file? other place with
  | none => rfl
  | some f =>
    rw [there] at same
    have distinct : f.id ≠ row.id := by
      intro e
      obtain ⟨hf, own, here⟩ := file?_eq_some same
      obtain ⟨hrow, hkey, hpath⟩ := file?_eq_some h.found
      obtain rfl := ht.fileIds.eq_of_id hf hrow e
      exact elsewhere ⟨own.symm.trans hkey, here.symm.trans hpath⟩
    simp only [Option.map_some, h.otherTypes f.id distinct]
    congr 2
    apply List.map_congr_left
    intro u hu
    obtain ⟨hu, own⟩ := List.mem_filter.1 hu
    rw [h.otherMembers u hu (of_decide_eq_true own ▸ distinct)]

end CodeOutline.Graph.Store

namespace CodeOutline.Ingest

open CodeOutline.Graph CodeOutline.Remote CodeOutline.Text

variable {language : Language} {key : String} {s t : Store}

/-! ## Outcomes -/

/-- The file is fetched, or fails to be in a way that callers are prepared for. -/
def Delivery.Foreseen (d : Delivery) : Prop :=
  (∃ text, d.call.result = .ok text) ∨ ∃ fault, d.call.result = .error (.fetch fault)

/-- What becomes of a file that is fetched or fails to be. -/
def Delivery.outcome (language : Language) (d : Delivery) : Outcome :=
  match d.call.result with
  | .ok text => outcomeOf language d.path text
  | .error (.fetch fault) => ⟨d.path, .failed .fetch (.fetch fault) none⟩
  | .error _ => ⟨d.path, .skipped⟩

theorem Delivery.Foreseen.result {d : Delivery} (h : d.Foreseen) :
    d.result language = .ok (d.outcome language) := by
  unfold Delivery.result resultOf Delivery.outcome
  rcases h with ⟨text, h⟩ | ⟨fault, h⟩ <;> simp only [h]

theorem Delivery.path_outcome (d : Delivery) : (d.outcome language).path = d.path := by
  unfold Delivery.outcome
  split
  · exact path_outcomeOf
  · rfl
  · rfl

theorem isSkipped_outcomeOf {path text : String} :
    (outcomeOf language path text).isSkipped = false := by
  unfold outcomeOf
  split
  · rfl
  · split <;> rfl

theorem Delivery.Foreseen.isSkipped {d : Delivery} (h : d.Foreseen) :
    (d.outcome language).isSkipped = false := by
  unfold Delivery.outcome
  rcases h with ⟨text, h⟩ | ⟨fault, h⟩
  · simp only [h]
    exact isSkipped_outcomeOf
  · simp only [h]
    rfl

/-- The files that are stored are those whose texts can be. -/
theorem Delivery.isStored_outcome (d : Delivery) :
    (d.outcome language).isStored = (d.storable? language).isSome := by
  unfold Delivery.outcome Delivery.storable? Ingest.storable?
  cases d.call.result with
  | ok text => rw [isStored_outcomeOf, Option.isSome_map]
  | error fault => cases fault <;> rfl

/-- A text that can be stored has been fetched and read. -/
theorem Delivery.of_storable {d : Delivery} {text : String} {reading : Reading}
    (h : d.storable? language = some (text, reading)) :
    d.call.result = .ok text ∧ language.typesOf text = .ok reading.types ∧
      reading.namespaceName = namespaceOf language text := by
  unfold Delivery.storable? Ingest.storable? at h
  split at h
  · next text' fetched =>
    obtain ⟨reading', read, e⟩ := Option.map_eq_some_iff.1 h
    cases e
    refine ⟨fetched, ?_⟩
    unfold readingOf at read
    split at read
    · cases read
    · next types typed =>
      split at read
      · cases read
        exact ⟨typed, rfl⟩
      · cases read
  · cases h

/-- What becomes of the files of a batch: first those that are started, and then the others. -/
def Delivery.outcomes (language : Language) (toStart : Option Nat) (deliveries : List Delivery) :
    List Outcome :=
  (started toStart deliveries).map (·.outcome language) ++
    (deliveries.drop (started toStart deliveries).length).map fun d => ⟨d.path, .skipped⟩

/-- A batch of files that are fetched or fail to be has a report. -/
theorem ingestBatch_foreseen (hkey : isBlankText key = false) (p : Progress)
    {deliveries : List Delivery} (foreseen : ∀ d ∈ deliveries, d.Foreseen) (toStart : Option Nat) :
    (p.ingestBatch language key deliveries toStart).1 =
      .ok ⟨key, Delivery.outcomes language toStart deliveries⟩ := by
  have results : Delivery.results language toStart deliveries =
      (Delivery.outcomes language toStart deliveries).map .ok := by
    rw [Delivery.results, Delivery.outcomes, List.map_append, List.map_map, List.map_map]
    congr 1
    apply List.map_congr_left
    intro d hd
    exact (foreseen d (started_subset toStart deliveries hd)).result
  rw [ingestBatch_report hkey, mapM_eq_ok.2 ((List.map_id _).trans results)]

/-- What becomes of a file alone in an empty store. -/
theorem ingestBatch_alone (hkey : isBlankText key = false) {d : Delivery} (foreseen : d.Foreseen) :
    (Progress.ingestBatch {} language key [d] none).1 = .ok ⟨key, [d.outcome language]⟩ :=
  ingestBatch_foreseen hkey {} (List.forall_mem_singleton.2 foreseen) none

/-! ## What is stored -/

theorem Stores.rowsAt {path text other place : String} {reading : Reading}
    (h : Stores key path text reading s t) (hs : s.Consistent)
    (elsewhere : ¬ (other = key ∧ place = path)) : t.rowsAt other place = s.rowsAt other place := by
  obtain ⟨u, node, found, made, row, created, ok⟩ := h
  obtain ⟨hu, -⟩ := created.run.consistent hs
  obtain ⟨ht, -⟩ := hu.replaceFileFacts ok
  rw [(hu.replaced ok).rowsAt ht elsewhere]
  exact Store.rowsAt_of_frame (by rw [created.frame]) (by rw [created.frame]) (by rw [created.frame])

namespace Delivered

theorem run {deliveries : List Delivery} (h : Delivered language key deliveries s t) :
    Store.FactRun key s t := by
  induction h with
  | nil => exact .refl
  | failed _ _ ih => exact ih
  | stored _ stores _ ih => exact stores.run.trans ih

/-- The store that a batch has come to after some of its files. -/
theorem split {before after : List Delivery} (h : Delivered language key (before ++ after) s t) :
    ∃ u, Delivered language key before s u ∧ Delivered language key after u t := by
  induction before generalizing s with
  | nil => exact ⟨s, .nil s, h⟩
  | cons d rest ih =>
    cases h with
    | failed unstorable others =>
      obtain ⟨u, first, second⟩ := ih others
      exact ⟨u, .failed unstorable first, second⟩
    | stored storable stores others =>
      obtain ⟨u, first, second⟩ := ih others
      exact ⟨u, .stored storable stores first, second⟩

/-- A path that no file of the batch is stored for stays as it is, with all its rows. -/
theorem untouched {deliveries : List Delivery} (h : Delivered language key deliveries s t)
    (hs : s.Consistent) {other place : String}
    (none : ∀ d ∈ deliveries, other = key → d.path = place → d.storable? language = none) :
    t.stored? other place = s.stored? other place ∧ t.rowsAt other place = s.rowsAt other place := by
  induction h with
  | nil => exact ⟨rfl, rfl⟩
  | failed _ _ ih => exact ih hs fun d hd => none d (List.mem_cons_of_mem _ hd)
  | @stored d rest s u t text reading storable stores others ih =>
    have elsewhere : ¬ (other = key ∧ place = d.path) := by
      rintro ⟨own, here⟩
      rw [none d (List.mem_cons_self ..) own here.symm] at storable
      cases storable
    obtain ⟨hu, -⟩ := stores.run.consistent hs
    obtain ⟨entry, rows⟩ := ih hu fun d hd => none d (List.mem_cons_of_mem _ hd)
    rw [entry, rows, stores.stored?_eq hs, if_neg elsewhere, stores.rowsAt hs elsewhere]
    exact ⟨rfl, rfl⟩

/-- A path has what was stored for it last. -/
theorem stored?_of_last {before after : List Delivery} {d : Delivery} {text : String}
    {reading : Reading} (h : Delivered language key (before ++ d :: after) s t) (hs : s.Consistent)
    (storable : d.storable? language = some (text, reading))
    (last : ∀ e ∈ after, e.path = d.path → e.storable? language = none) :
    t.stored? key d.path = some ⟨Sha256.hex text, d.path, reading.namespaceName, reading.types⟩ := by
  obtain ⟨u, first, rest⟩ := h.split
  obtain ⟨hu, -⟩ := first.run.consistent hs
  cases rest with
  | failed unstorable => cases storable.symm.trans unstorable
  | @stored _ _ _ v _ text' reading' storable' stores others =>
    cases storable.symm.trans storable'
    obtain ⟨hv, -⟩ := stores.run.consistent hu
    rw [(others.untouched hv fun e he _ => last e he).1, stores.stored?_eq hu, if_pos ⟨rfl, rfl⟩]

end Delivered

end CodeOutline.Ingest
