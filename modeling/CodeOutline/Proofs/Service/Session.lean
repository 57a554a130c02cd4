import CodeOutline.Proofs.Service.Generated

/-!
# Sessions

A session is any sequence of operations on one database, from single statements to whole generations,
each of which may fail. `perform_keeps` says what one operation keeps, and `session_keeps` what holds
after every operation of every session: the store is consistent, and a number that a row had once is
not given to another one.
-/

namespace CodeOutline.Service

open CodeOutline.Graph CodeOutline.Ingest CodeOutline.Log CodeOutline.Remote CodeOutline.Text

/-- What can be asked of a database. -/
inductive Operation where
  | putRepository (draft : RepositoryDraft)
  | addNamespace (draft : NamespaceDraft)
  | replaceFileFacts (draft : FileDraft) (types : List TypeDraft)
  | deleteFilesExcept (repository : String) (keep : List String)
  | deleteEmptyNamespaces (repository : String)
  | saveSnapshot (draft : SnapshotDraft)
  /-- Makes a namespace with its chain, with rivals and lost rows as in `Contention`. -/
  | getOrCreate (repository : String) (name : Option String) (rivals vanishing : List String)
  | ingest (language : Language) (repository path text : String)
  | ingestAll (language : Language) (repository : String) (paths : List String)
      (fetch : String → Call String) (toStart : Option Nat)
  | generate (remote : Remote) (settings : Settings) (random : String) (owner name : Option String)
      (force : Bool) (toStart : Option Nat)

/-- The world after a statement: a refused one leaves no trace. -/
def World.after {α : Type} (w : World) (answer : Except StoreFault (α × Store)) : World :=
  match answer with
  | .ok (_, s) => { w with store := s }
  | .error _ => w

/-- The world after an operation, whether it succeeds or fails. -/
def Operation.perform (w : World) : Operation → World
  | putRepository draft => w.after (w.store.putRepository draft)
  | addNamespace draft => w.after (w.store.addNamespace draft)
  | replaceFileFacts draft types => w.after (w.store.replaceFileFacts draft types)
  | deleteFilesExcept repository keep =>
    { w with store := (w.store.deleteFilesExcept repository keep).2 }
  | deleteEmptyNamespaces repository =>
    { w with store := (w.store.deleteEmptyNamespaces repository).2 }
  | saveSnapshot draft => w.after (w.store.saveSnapshot draft)
  | getOrCreate repository name rivals vanishing =>
    let (_, c, events) := Graph.getOrCreate Contention.access repository name
      ⟨w.store, rivals, vanishing⟩
    { w with store := c.store, events := w.events ++ events }
  | ingest language repository path text =>
    match w.toProgress.ingest language repository path text with
    | .ok (_, progress) => { w with toProgress := progress }
    | .error _ => w
  | ingestAll language repository paths fetch toStart =>
    { w with toProgress := (w.toProgress.ingestAll language repository paths fetch toStart).2 }
  | generate remote settings random owner name force toStart =>
    (Service.generate remote settings random owner name force toStart w).2

/-- The world after all operations of a session. -/
def session (w : World) (operations : List Operation) : World :=
  operations.foldl Operation.perform w

/-- What an operation makes of a consistent store is consistent, and continues it. -/
def Keeps (s t : Store) : Prop := s.Consistent → t.Consistent ∧ s.Evolves t

namespace Keeps

variable {s t u : Store}

theorem refl (s : Store) : Keeps s s := fun h => ⟨h, .refl s⟩

theorem trans (h : Keeps s t) (h' : Keeps t u) : Keeps s u := by
  intro hs
  obtain ⟨ht, ev⟩ := h hs
  obtain ⟨hu, ev'⟩ := h' ht
  exact ⟨hu, ev.trans ev'⟩

theorem after {α : Type} {w : World} {answer : Except StoreFault (α × Store)}
    (h : ∀ a t, answer = .ok (a, t) → Keeps w.store t) : Keeps w.store (w.after answer).store := by
  unfold World.after
  cases answer with
  | error fault => exact refl _
  | ok answered => exact h answered.1 answered.2 rfl

end Keeps

/-- A call for a namespace keeps a store consistent whatever its rivals do. -/
theorem getOrCreate_contention_keeps (repository : String) (name : Option String) (c : Contention) :
    Keeps c.store (getOrCreate Contention.access repository name c).2.1.store := by
  unfold getOrCreate
  split
  · exact .refl _
  · split
    · refine Climb.run_keeps (P := fun d : Contention => Keeps c.store d.store) ?_ ?_ _ (.refl c.store)
      · intro name d h
        simp only [Contention.access]
        split
        · exact h
        · split
          · exact h.trans fun hd => (getOrCreate_run repository (some name) d.store).consistent hd
          · exact h
      · intro name parent d node e h ok
        simp only [Contention.access] at ok
        split at ok
        · cases ok
        · cases hadd : d.store.addNamespace ⟨repository, name, parent⟩ with
          | error fault =>
            rw [hadd] at ok
            cases ok
          | ok added =>
            rw [hadd] at ok
            cases ok
            exact h.trans fun hd => hd.addNamespace hadd
    · exact .refl _

theorem ingestAll_keeps (language : Language) (repository : String) (paths : List String)
    (fetch : String → Call String) (toStart : Option Nat) (p : Progress) :
    Keeps p.store (p.ingestAll language repository paths fetch toStart).2.store := by
  cases hkey : isBlankText repository with
  | true =>
    simp only [Progress.ingestAll, Progress.ingestBatch, hkey, if_true]
    exact .refl _
  | false => exact fun h => (ingestAll_ingested hkey p paths toStart).run.consistent h

theorem ingestText_keeps {language : Language} {repository : String}
    (hkey : isBlankText repository = false) (path text : String) (p : Progress) :
    Keeps p.store (p.ingestText language repository path text).2.store := by
  cases hread : readingOf language text with
  | none =>
    rw [ingestText_unstorable hkey p hread]
    exact .refl _
  | some reading => exact fun h => (ingestText_stores hkey p hread).run.consistent h

theorem Generated.keeps {identity : Except Fault RepositoryDraft} {s t : Store}
    {result : Except Fault Result} (h : Generated identity s result t) : Keeps s t := by
  cases h with
  | unknown => exact .refl _
  | failed _ _ put run => exact .trans (fun h => h.putRepository put) run.consistent
  | reused _ put => exact fun h => h.putRepository put
  | made _ put run saved =>
    exact .trans (fun h => h.putRepository put) (.trans run.consistent fun h => h.saveSnapshot saved)

/-- One operation keeps the store consistent and its numbers in use. -/
theorem perform_keeps (w : World) (operation : Operation) :
    Keeps w.store (operation.perform w).store := by
  cases operation with
  | putRepository => exact .after fun _ _ ok h => h.putRepository ok
  | addNamespace => exact .after fun _ _ ok h => h.addNamespace ok
  | replaceFileFacts => exact .after fun _ _ ok h => h.replaceFileFacts ok
  | deleteFilesExcept repository keep => exact fun h => h.deleteFilesExcept repository keep
  | deleteEmptyNamespaces repository => exact fun h => h.deleteEmptyNamespaces repository
  | saveSnapshot => exact .after fun _ _ ok h => h.saveSnapshot ok
  | getOrCreate repository name rivals vanishing =>
    exact getOrCreate_contention_keeps repository name ⟨w.store, rivals, vanishing⟩
  | ingest language repository path text =>
    cases hkey : isBlankText repository with
    | true =>
      simp only [Operation.perform, Progress.ingest, hkey, if_true]
      exact .refl _
    | false =>
      simp only [Operation.perform, Progress.ingest, hkey, Bool.false_eq_true, if_false]
      exact ingestText_keeps hkey path text w.toProgress
  | ingestAll language repository paths fetch toStart =>
    exact ingestAll_keeps language repository paths fetch toStart w.toProgress
  | generate remote settings random owner name force toStart =>
    exact (generate_generated remote settings random owner name force toStart w).keeps

theorem session_keeps (w : World) (operations : List Operation) :
    Keeps w.store (session w operations).store := by
  induction operations generalizing w with
  | nil => exact .refl _
  | cons operation rest ih => exact (perform_keeps w operation).trans (ih _)

/-- After every operation of every session that starts with an empty database the store is consistent,
and a number is that of the same row whenever it is in use: it is in use without a break. -/
theorem session_consistent (disk : Files.Disk) (early middle late : List Operation) :
    let s := (session { disk } early).store
    let t := (session { disk } (early ++ middle)).store
    let u := (session { disk } (early ++ middle ++ late)).store
    u.Consistent ∧
      (∀ m ∈ u.members.rows, m.kind.name = "method" ∨ m.kind.name = "field") ∧
      Table.KeepsNumbers (·.id) Repository.SameKey s.repositories t.repositories u.repositories ∧
      Table.KeepsNumbers (·.id) Eq s.namespaces t.namespaces u.namespaces ∧
      Table.KeepsNumbers (·.id) SourceFile.SameKey s.files t.files u.files ∧
      Table.KeepsNumbers (·.id) Eq s.types t.types u.types ∧
      Table.KeepsNumbers (·.id) Eq s.members t.members u.members ∧
      Table.KeepsNumbers (·.id) Snapshot.SameDocument s.snapshots t.snapshots u.snapshots := by
  intro s t u
  obtain ⟨hs, -⟩ := session_keeps { disk } early Store.consistent_empty
  have ht : Keeps s t := by
    have := session_keeps (session { disk } early) middle
    rwa [session, session, ← List.foldl_append] at this
  have hu : Keeps t u := by
    have := session_keeps (session { disk } (early ++ middle)) late
    rwa [session, session, ← List.foldl_append] at this
  obtain ⟨ht, ev⟩ := ht hs
  obtain ⟨hu, ev'⟩ := hu ht
  refine ⟨hu, fun m _ => ?_, ?_, ?_, ?_, ?_, ?_, ?_⟩
  · cases m.kind with
    | method => exact .inl rfl
    | field => exact .inr rfl
  · exact ev.repositories.keepsNumbers (fun _ _ _ => .trans) hs.repositoryIds ev'.repositories
  · exact ev.namespaces.keepsNumbers (fun _ _ _ => .trans) hs.namespaceIds ev'.namespaces
  · exact ev.files.keepsNumbers (fun _ _ _ => .trans) hs.fileIds ev'.files
  · exact ev.types.keepsNumbers (fun _ _ _ => .trans) hs.typeIds ev'.types
  · exact ev.members.keepsNumbers (fun _ _ _ => .trans) hs.memberIds ev'.members
  · exact ev.snapshots.keepsNumbers (fun _ _ _ => .trans) hs.snapshotIds ev'.snapshots

end CodeOutline.Service
