import CodeOutline.Proofs.Graph.Statement

/-!
# Transactions

A connection to the database, one statement after another. The first statement that writes opens a
transaction; what it has written stays pending while others follow, also when one of them is refused.
`atomically` ends the transaction: it commits what is pending, or drops it all when the work has failed.
That the database can drop it is the one assumption about it that is made here.

`Ends` says where work comes to inside a transaction. It goes through sequences of statements, and so
says what is left behind at the end of a transaction (`Ends.settled`).
-/

namespace CodeOutline.Graph

/-- Why work on a connection fails. -/
inductive WorkFault where
  /-- A statement was refused. -/
  | refused (fault : StoreFault)
  /-- A repository would have two current documents. -/
  | secondCurrent
  /-- A row that was written is not there. -/
  | vanished
  deriving Repr, DecidableEq

/-- A connection: what is committed, and what the open transaction has made of it. -/
structure Connection where
  committed : Store
  pending : Option Store := none

/-- What a query on the connection sees. -/
def Connection.view (c : Connection) : Store := c.pending.getD c.committed

/-- A single statement. It is carried out as a whole or refused. -/
abbrev Statement (α : Type) := StateT Store (Except WorkFault) α

/-- Something that is done on a connection, statement by statement. -/
def Work (α : Type) := Connection → Except WorkFault α × Connection

namespace Work

variable {α β : Type}

instance : Monad Work where
  pure a := fun c => (.ok a, c)
  bind work next := fun c =>
    match work c with
    | (.ok a, c) => next a c
    | (.error fault, c) => (.error fault, c)

/-- Carries out a statement. What was pending stays pending if it is refused. -/
def execute (statement : Statement α) : Work α := fun c =>
  match statement.run c.view with
  | .ok (a, s) => (.ok a, { c with pending := some s })
  | .error fault => (.error fault, { c with pending := some c.view })

/-- Answers a query. -/
def select (query : Store → α) : Work α := fun c => (.ok (query c.view), c)

/-- Answers a query for a row that must be there. -/
def found (query : Store → Option α) : Work α := fun c =>
  match query c.view with
  | some a => (.ok a, c)
  | none => (.error .vanished, c)

/-- Commits what is pending after the work, or drops it if the work has failed. -/
def atomically (work : Work α) : Work α := fun c =>
  match work c with
  | (.ok a, c) => (.ok a, { committed := c.view })
  | (.error fault, c) => (.error fault, { committed := c.committed })

theorem bind_of_ok {work : Work α} {next : α → Work β} {c c' : Connection} {a : α}
    (h : work c = (.ok a, c')) : (work >>= next) c = next a c' := by
  change (match work c with | (.ok a, c) => next a c | (.error fault, c) => (.error fault, c)) = _
  rw [h]

theorem bind_of_error {work : Work α} {next : α → Work β} {c c' : Connection} {fault : WorkFault}
    (h : work c = (.error fault, c')) : (work >>= next) c = (.error fault, c') := by
  change (match work c with | (.ok a, c) => next a c | (.error fault, c) => (.error fault, c)) = _
  rw [h]

end Work

open Work

variable {α β : Type}

/-- Where work ends inside a transaction that has come to the store `s`: it answers and has come to
another store, or it fails. Nothing is committed. -/
def Ends (work : Work α) (s : Store) (ending : Except WorkFault (α × Store)) : Prop :=
  ∀ c, c.view = s → ∃ c', c'.committed = c.committed ∧
    match ending with
    | .ok (a, t) => work c = (.ok a, c') ∧ c'.view = t
    | .error fault => work c = (.error fault, c')

variable {s t : Store} {a : α} {fault : WorkFault} {work : Work α} {next : α → Work β}

theorem ends_execute (statement : Statement α) (s : Store) :
    Ends (execute statement) s (statement.run s) := by
  rintro c rfl
  cases h : statement.run c.view with
  | ok out => exact ⟨{ c with pending := some out.2 }, rfl, by simp only [execute, h], rfl⟩
  | error fault => exact ⟨{ c with pending := some c.view }, rfl, by simp only [execute, h]⟩

theorem ends_pure (a : α) (s : Store) : Ends (pure a) s (.ok (a, s)) :=
  fun c h => ⟨c, rfl, rfl, h⟩

theorem ends_found {query : Store → Option α} (h : query s = some a) :
    Ends (found query) s (.ok (a, s)) := by
  rintro c rfl
  exact ⟨c, rfl, by rw [found, h], rfl⟩

theorem Ends.bind {ending : Except WorkFault (β × Store)} (h : Ends work s (.ok (a, t)))
    (h' : Ends (next a) t ending) : Ends (work >>= next) s ending := by
  intro c hc
  obtain ⟨c', committed, hwork, view⟩ := h c hc
  obtain ⟨c'', committed', ends⟩ := h' c' view
  refine ⟨c'', committed'.trans committed, ?_⟩
  cases ending with
  | ok out => exact ⟨(bind_of_ok hwork).trans ends.1, ends.2⟩
  | error fault => exact (bind_of_ok hwork).trans ends

theorem Ends.bind_of_error (h : Ends work s (.error fault)) :
    Ends (work >>= next) s (.error fault) := by
  intro c hc
  obtain ⟨c', committed, hwork⟩ := h c hc
  exact ⟨c', committed, Work.bind_of_error hwork⟩

/-- What a transaction leaves behind: the store that the work has come to, or the one that there was. -/
def settled (s : Store) (ending : Except WorkFault (α × Store)) : Except WorkFault α × Connection :=
  match ending with
  | .ok (a, t) => (.ok a, { committed := t })
  | .error fault => (.error fault, { committed := s })

theorem Ends.settled {ending : Except WorkFault (α × Store)} (h : Ends work s ending) :
    atomically work { committed := s } = Graph.settled s ending := by
  obtain ⟨c', committed, ends⟩ := h { committed := s } rfl
  cases ending with
  | ok out =>
    obtain ⟨hwork, view⟩ := ends
    simp only [atomically, hwork, view, Graph.settled]
  | error fault => simp only [atomically, ends, committed, Graph.settled]

/-- A transaction that commits, and what follows it. -/
theorem Ends.committed (h : Ends work s (.ok (a, t))) :
    (atomically work >>= next) { committed := s } = next a { committed := t } :=
  bind_of_ok h.settled

/-- A transaction that fails. -/
theorem Ends.dropped (h : Ends work s (.error fault)) :
    (atomically work >>= next) { committed := s } = (.error fault, { committed := s }) :=
  Work.bind_of_error h.settled

theorem found_committed {query : Store → Option α} (h : query t = some a) :
    found query { committed := t } = (.ok a, { committed := t }) := by
  change (match query t with | some a => _ | none => _) = _
  rw [h]

end CodeOutline.Graph
