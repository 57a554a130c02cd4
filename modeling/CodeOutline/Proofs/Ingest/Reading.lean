import CodeOutline.Ingest.Batch
import CodeOutline.Proofs.Graph.Climb

/-!
# What ingestion stores

A text is read before the store is touched, so whether a file can be stored, and under which outcome,
is decided by its text alone (`readingOf`, `outcomeOf`). A batch goes through the files that it may
start: `Delivered` says what it does to the store, one file after the other, and
`ingestDeliveries_results` what becomes of each file. Requests and events have no part in either. Where
each path has one text, `Ingested` and `resultsOf` say the same by paths.
-/

namespace CodeOutline.Ingest

open CodeOutline.Graph CodeOutline.Remote CodeOutline.Text

/-- What a text says: the namespace that it belongs to, and the types that it declares. -/
structure Reading where
  namespaceName : String
  types : List TypeFact

/-- The namespace of a text, which may turn out not to be a name of one. -/
def namespaceOf (language : Language) (text : String) : String :=
  normalizeName (some (language.namespaceOf text))

/-- What a text says, if that can be stored: it must be source of the language, in a namespace that
there can be. -/
def readingOf (language : Language) (text : String) : Option Reading :=
  match language.typesOf text with
  | .error _ => none
  | .ok types =>
    if isWellFormedName (namespaceOf language text) then some ⟨namespaceOf language text, types⟩
    else none

/-- What becomes of a file of the given text. -/
def outcomeOf (language : Language) (path text : String) : Outcome :=
  match language.typesOf text with
  | .error error => ⟨path, .failed .parse (.source error) (some (language.namespaceOf text))⟩
  | .ok types =>
    if isWellFormedName (namespaceOf language text) then
      ⟨path, .stored (namespaceOf language text) types.length⟩
    else
      ⟨path, .failed .persist (.hierarchy (.malformedName (language.namespaceOf text)))
        (some (language.namespaceOf text))⟩

/-- What becomes of a file that is fetched; an unexpected fault is passed on. -/
def resultOf (language : Language) (fetch : String → Call String) (path : String) :
    Except RemoteFault Outcome :=
  match (fetch path).result with
  | .ok text => .ok (outcomeOf language path text)
  | .error (.fetch fault) => .ok ⟨path, .failed .fetch (.fetch fault) none⟩
  | .error fault => .error fault

/-- The text that is fetched for a path, and what it says, if it can be stored. -/
def storable? (language : Language) (fetch : String → Call String) (path : String) :
    Option (String × Reading) :=
  match (fetch path).result with
  | .ok text => (readingOf language text).map (text, ·)
  | .error _ => none

/-- The files of a batch that are started. -/
def started {α : Type} (toStart : Option Nat) (files : List α) : List α :=
  match toStart with
  | none => files
  | some n => files.take n

theorem started_subset {α : Type} (toStart : Option Nat) (files : List α) :
    started toStart files ⊆ files := by
  cases toStart with
  | none => exact List.Subset.refl files
  | some n => exact List.take_subset n files

theorem started_map {α β : Type} (toStart : Option Nat) (f : α → β) (files : List α) :
    started toStart (files.map f) = (started toStart files).map f := by
  cases toStart with
  | none => rfl
  | some n => exact (List.map_take ..).symm

/-- What becomes of a file of a batch. -/
def Delivery.result (language : Language) (d : Delivery) : Except RemoteFault Outcome :=
  resultOf language (fun _ => d.call) d.path

/-- The text of a file of a batch, and what it says, if it can be stored. -/
def Delivery.storable? (language : Language) (d : Delivery) : Option (String × Reading) :=
  Ingest.storable? language (fun _ => d.call) d.path

/-- The store `t` is `s` with the facts of a text in the place of all that was stored for a path. -/
def Stores (key path text : String) (reading : Reading) (s t : Store) : Prop :=
  ∃ u node found made row, Created key reading.namespaceName s u node found made ∧
    u.replaceFileFacts ⟨key, node.id, path, Sha256.hex text⟩ (reading.types.map TypeFact.draft) =
      .ok (row, t)

/-- The store `t` is `s` after some files of a batch have been gone through. -/
inductive Delivered (language : Language) (key : String) : List Delivery → Store → Store → Prop where
  | nil (s : Store) : Delivered language key [] s s
  | failed {d : Delivery} {rest : List Delivery} {s t : Store} (unstorable : d.storable? language = none)
      (others : Delivered language key rest s t) : Delivered language key (d :: rest) s t
  | stored {d : Delivery} {rest : List Delivery} {s u t : Store} {text : String} {reading : Reading}
      (storable : d.storable? language = some (text, reading))
      (stores : Stores key d.path text reading s u) (others : Delivered language key rest u t) :
      Delivered language key (d :: rest) s t

/-- The store `t` is `s` after the files at some paths have been gone through. -/
inductive Ingested (language : Language) (key : String) (fetch : String → Call String) :
    List String → Store → Store → Prop where
  | nil (s : Store) : Ingested language key fetch [] s s
  | failed {path : String} {rest : List String} {s t : Store}
      (unstorable : storable? language fetch path = none)
      (others : Ingested language key fetch rest s t) : Ingested language key fetch (path :: rest) s t
  | stored {path : String} {rest : List String} {s u t : Store} {text : String} {reading : Reading}
      (storable : storable? language fetch path = some (text, reading))
      (stores : Stores key path text reading s u) (others : Ingested language key fetch rest u t) :
      Ingested language key fetch (path :: rest) s t

variable {language : Language} {key : String}

theorem Stores.run {path text : String} {reading : Reading} {s t : Store}
    (h : Stores key path text reading s t) : Store.FactRun key s t := by
  obtain ⟨u, node, found, made, row, created, ok⟩ := h
  exact created.run.tail (.replaceFacts created.mem created.own ok)

/-- Where each path has one text, a batch is told by its paths. -/
theorem Delivered.ingested {fetch : String → Call String} {paths : List String} {s t : Store}
    (h : Delivered language key (paths.map fun path => ⟨path, fetch path⟩) s t) :
    Ingested language key fetch paths s t := by
  induction paths generalizing s with
  | nil =>
    cases h with
    | nil => exact .nil _
  | cons path rest ih =>
    cases h with
    | failed unstorable others => exact .failed unstorable (ih others)
    | stored storable stores others => exact .stored storable stores (ih others)

theorem Ingested.run {fetch : String → Call String} {paths : List String} {s t : Store}
    (h : Ingested language key fetch paths s t) : Store.FactRun key s t := by
  induction h with
  | nil => exact .refl
  | failed _ _ ih => exact ih
  | stored _ stores _ ih => exact stores.run.trans ih

/-! ## One file -/

theorem path_outcomeOf {path text : String} : (outcomeOf language path text).path = path := by
  unfold outcomeOf
  split
  · rfl
  · split <;> rfl

theorem isStored_outcomeOf {path text : String} :
    (outcomeOf language path text).isStored = (readingOf language text).isSome := by
  unfold outcomeOf readingOf
  split
  · rfl
  · split <;> rfl

/-- The types of a text in a namespace that there can be are stored, whatever the store. -/
theorem persist_wellFormed (hkey : isBlankText key = false) (p : Progress) (path text name : String)
    (types : List TypeFact) (hname : isWellFormedName (normalizeName (some name))) :
    (p.persist key path text name types).1 = ⟨path, .stored (normalizeName (some name)) types.length⟩ ∧
      Stores key path text ⟨normalizeName (some name), types⟩ p.store
        (p.persist key path text name types).2.store := by
  obtain ⟨node, u, events, found, made, hget, created⟩ := getOrCreate_plain hkey hname p.store
  obtain ⟨row, t, ok⟩ := Store.exists_replaceFileFacts
    (Store.hasNamespace_iff.2 (.of_mem created.mem)) key path (Sha256.hex text) types
  simp only [Progress.persist, Progress.getNamespace, hget, ok]
  exact ⟨by rw [created.named], u, node, found, made, row, created, ok⟩

/-- Where there can be no such namespace nothing is stored. -/
theorem persist_malformed (hkey : isBlankText key = false) (p : Progress) (path text name : String)
    (types : List TypeFact) (hname : isWellFormedName (normalizeName (some name)) = false) :
    (p.persist key path text name types).1 =
        ⟨path, .failed .persist (.hierarchy (.malformedName name)) (some name)⟩ ∧
      (p.persist key path text name types).2.store = p.store := by
  have hget : getOrCreate .plain key (some name) p.store =
      (.error (.malformedName name), p.store, []) := by
    simp [getOrCreate, hkey, hname]
  simp only [Progress.persist, Progress.getNamespace, hget]
  exact ⟨rfl, rfl⟩

theorem ingestText_outcome (hkey : isBlankText key = false) (p : Progress) (path text : String) :
    (p.ingestText language key path text).1 = outcomeOf language path text := by
  unfold Progress.ingestText outcomeOf
  cases language.typesOf text with
  | error error => rfl
  | ok types =>
    by_cases hname : isWellFormedName (namespaceOf language text)
    · simp only [hname, if_true]
      exact (persist_wellFormed hkey p path text _ types hname).1
    · simp only [hname, Bool.false_eq_true, if_false]
      exact (persist_malformed hkey p path text _ types (Bool.eq_false_iff.2 hname)).1

theorem ingestText_stores (hkey : isBlankText key = false) (p : Progress) {path text : String}
    {reading : Reading} (h : readingOf language text = some reading) :
    Stores key path text reading p.store (p.ingestText language key path text).2.store := by
  unfold readingOf at h
  unfold Progress.ingestText
  cases htypes : language.typesOf text with
  | error error => simp only [htypes, reduceCtorEq] at h
  | ok types =>
    by_cases hname : isWellFormedName (namespaceOf language text)
    · simp only [htypes, hname, if_true, Option.some.injEq] at h
      rw [← h]
      exact (persist_wellFormed hkey p path text _ types hname).2
    · simp only [htypes, hname, Bool.false_eq_true, if_false, reduceCtorEq] at h

theorem ingestText_unstorable (hkey : isBlankText key = false) (p : Progress) {path text : String}
    (h : readingOf language text = none) :
    (p.ingestText language key path text).2.store = p.store := by
  unfold readingOf at h
  unfold Progress.ingestText
  cases htypes : language.typesOf text with
  | error error => rfl
  | ok types =>
    by_cases hname : isWellFormedName (namespaceOf language text)
    · simp only [htypes, hname, if_true, reduceCtorEq] at h
    · exact (persist_malformed hkey p path text _ types (Bool.eq_false_iff.2 hname)).2

/-! ## A batch -/

theorem ingestDelivery_result (hkey : isBlankText key = false) (p : Progress) (d : Delivery) :
    (p.ingestDelivery language key d).1 = d.result language := by
  unfold Progress.ingestDelivery Delivery.result resultOf Progress.perform
  cases d.call.result with
  | ok text => simp only [ingestText_outcome hkey]
  | error fault => cases fault <;> rfl

theorem ingestDelivery_store (p : Progress) (d : Delivery) :
    (p.ingestDelivery language key d).2.store =
      match d.call.result with
      | .ok text => ((p.perform d.call).2.ingestText language key d.path text).2.store
      | .error _ => p.store := by
  unfold Progress.ingestDelivery Progress.perform
  cases d.call.result with
  | ok text => rfl
  | error fault => cases fault <;> rfl

/-- A file and then some others. -/
theorem ingestDelivery_delivered (hkey : isBlankText key = false) (p : Progress) (d : Delivery)
    {rest : List Delivery} {t : Store}
    (others : Delivered language key rest (p.ingestDelivery language key d).2.store t) :
    Delivered language key (d :: rest) p.store t := by
  rw [ingestDelivery_store] at others
  cases hfetch : d.call.result with
  | ok text =>
    simp only [hfetch] at others
    cases hread : readingOf language text with
    | some reading =>
      exact .stored (by simp [Delivery.storable?, storable?, hfetch, hread])
        (ingestText_stores hkey (p.perform d.call).2 hread) others
    | none =>
      rw [ingestText_unstorable hkey _ hread] at others
      exact .failed (by simp [Delivery.storable?, storable?, hfetch, hread]) others
  | error fault =>
    simp only [hfetch] at others
    exact .failed (by simp [Delivery.storable?, storable?, hfetch]) others

/-- Calls in a row succeed exactly where each of them does. -/
theorem mapM_eq_ok {ε α β : Type} {f : α → Except ε β} {l : List α} {m : List β} :
    l.mapM f = .ok m ↔ l.map f = m.map .ok := by
  induction l generalizing m with
  | nil => cases m <;> simp [pure, Except.pure]
  | cons a rest ih =>
    simp only [List.mapM_cons, andThen_eq_ok, List.map_cons]
    constructor
    · rintro ⟨b, hb, others, hothers, hm⟩
      cases hm
      rw [hb, ih.1 hothers, List.map_cons]
    · intro h
      cases m with
      | nil => cases h
      | cons b others =>
        obtain ⟨hb, hothers⟩ := List.cons.inj h
        exact ⟨b, hb, others, ih.2 hothers, rfl⟩

/-- Calls that all succeed have all their answers. -/
theorem exists_map_ok {ε α β : Type} {f : α → Except ε β} {P : β → Prop} {l : List α}
    (h : ∀ a ∈ l, ∃ b, f a = .ok b ∧ P b) : ∃ m : List β, l.map f = m.map .ok ∧ ∀ b ∈ m, P b := by
  induction l with
  | nil => exact ⟨[], rfl, fun _ hb => nomatch hb⟩
  | cons a rest ih =>
    obtain ⟨b, hb, hP⟩ := h a (List.mem_cons_self ..)
    obtain ⟨m, hm, hall⟩ := ih fun x hx => h x (List.mem_cons_of_mem _ hx)
    refine ⟨b :: m, by rw [List.map_cons, hb, hm, List.map_cons], fun x hx => ?_⟩
    rcases List.mem_cons.1 hx with rfl | hx
    · exact hP
    · exact hall x hx

/-- Calls in a row end with the first one that fails. -/
theorem mapM_eq_error {ε α β : Type} {f : α → Except ε β} {before rest : List α} {a : α} {e : ε}
    (ok : ∀ x ∈ before, ∃ b, f x = .ok b) (failed : f a = .error e) :
    (before ++ a :: rest).mapM f = .error e := by
  induction before with
  | nil =>
    rw [List.nil_append, List.mapM_cons, failed]
    rfl
  | cons x before ih =>
    obtain ⟨b, hb⟩ := ok x (List.mem_cons_self ..)
    rw [List.cons_append, List.mapM_cons, hb, ih fun y hy => ok y (List.mem_cons_of_mem _ hy)]
    rfl

/-- What became of a batch: each file that was started has its own result, the others are skipped. -/
def Delivery.results (language : Language) (toStart : Option Nat) (deliveries : List Delivery) :
    List (Except RemoteFault Outcome) :=
  (started toStart deliveries).map (·.result language) ++
    (deliveries.drop (started toStart deliveries).length).map fun d => .ok ⟨d.path, .skipped⟩

theorem ingestDeliveries_results (hkey : isBlankText key = false) (p : Progress) (toStart : Option Nat)
    (deliveries : List Delivery) :
    (p.ingestDeliveries language key toStart deliveries).1 =
      Delivery.results language toStart deliveries := by
  induction deliveries generalizing p toStart with
  | nil => cases toStart <;> simp [Progress.ingestDeliveries, Delivery.results, started]
  | cons d rest ih =>
    unfold Progress.ingestDeliveries
    split
    · next hzero =>
      simp only [ih]
      simp [hzero, Delivery.results, started]
    · next hmore =>
      simp only [ih, ingestDelivery_result hkey]
      cases toStart with
      | none => simp [Delivery.results, started]
      | some n =>
        cases n with
        | zero => exact absurd rfl hmore
        | succ n => simp [Delivery.results, started]

theorem ingestDeliveries_delivered (hkey : isBlankText key = false) (p : Progress)
    (toStart : Option Nat) (deliveries : List Delivery) :
    Delivered language key (started toStart deliveries) p.store
      (p.ingestDeliveries language key toStart deliveries).2.store := by
  induction deliveries generalizing p toStart with
  | nil => cases toStart <;> simpa [Progress.ingestDeliveries, started] using .nil _
  | cons d rest ih =>
    unfold Progress.ingestDeliveries
    split
    · next hzero =>
      have := ih p toStart
      simpa [hzero, started] using this
    · next hmore =>
      cases toStart with
      | none => exact ingestDelivery_delivered hkey p d (ih _ none)
      | some n =>
        cases n with
        | zero => exact absurd rfl hmore
        | succ n => exact ingestDelivery_delivered hkey p d (ih _ (some n))

/-- A batch without a name for its repository stores nothing; any other goes through its files. -/
theorem ingestBatch_delivered (hkey : isBlankText key = false) (p : Progress)
    (deliveries : List Delivery) (toStart : Option Nat) :
    Delivered language key (started toStart deliveries) p.store
      (p.ingestBatch language key deliveries toStart).2.store := by
  have : Delivered language key (started toStart deliveries) p.store
      (p.ingestDeliveries language key toStart deliveries).2.store :=
    ingestDeliveries_delivered hkey p toStart deliveries
  unfold Progress.ingestBatch
  rw [if_neg (by simp [hkey])]
  dsimp only
  split <;> exact this

theorem ingestBatch_report (hkey : isBlankText key = false) (p : Progress)
    (deliveries : List Delivery) (toStart : Option Nat) :
    (p.ingestBatch language key deliveries toStart).1 =
      match (Delivery.results language toStart deliveries).mapM id with
      | .ok outcomes => .ok ⟨key, outcomes⟩
      | .error fault => .error (.remote fault) := by
  unfold Progress.ingestBatch
  rw [if_neg (by simp [hkey])]
  simp only [ingestDeliveries_results hkey]
  split <;> simp_all

/-! ## A batch with one text for each path -/

variable {fetch : String → Call String}

/-- What became of a batch: each file that was started has its own result, the others are skipped. -/
def resultsOf (language : Language) (fetch : String → Call String) (toStart : Option Nat)
    (paths : List String) : List (Except RemoteFault Outcome) :=
  (started toStart paths).map (resultOf language fetch) ++
    (paths.drop (started toStart paths).length).map fun path => .ok ⟨path, .skipped⟩

theorem results_of_paths (language : Language) (fetch : String → Call String) (toStart : Option Nat)
    (paths : List String) :
    Delivery.results language toStart (paths.map fun path => ⟨path, fetch path⟩) =
      resultsOf language fetch toStart paths := by
  rw [Delivery.results, started_map, List.map_map, List.length_map, ← List.map_drop, List.map_map]
  rfl

theorem ingestAll_ingested (hkey : isBlankText key = false) (p : Progress) (paths : List String)
    (toStart : Option Nat) :
    Ingested language key fetch (started toStart paths) p.store
      (p.ingestAll language key paths fetch toStart).2.store := by
  have delivered : Delivered language key (started toStart (paths.map fun path => ⟨path, fetch path⟩))
      p.store (p.ingestAll language key paths fetch toStart).2.store :=
    ingestBatch_delivered hkey p _ toStart
  rw [started_map] at delivered
  exact delivered.ingested

theorem ingestAll_report (hkey : isBlankText key = false) (p : Progress) (paths : List String)
    (toStart : Option Nat) :
    (p.ingestAll language key paths fetch toStart).1 =
      match (resultsOf language fetch toStart paths).mapM id with
      | .ok outcomes => .ok ⟨key, outcomes⟩
      | .error fault => .error (.remote fault) := by
  rw [Progress.ingestAll, ingestBatch_report hkey, results_of_paths]

end CodeOutline.Ingest
