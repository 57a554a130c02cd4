import CodeOutline.Proofs.Graph.Climb

/-!
# Callers that share a store

Any number of callers ask for namespaces of one store, and their operations on it come in any order: a
`Crowd` is the store with the calls between their operations, and `Crowd.turn` lets one of them perform
its next one. A caller can lose a race at every name of its chain. Then it takes what the winner has
made and goes on below it, so it may still be the winner further down.

What carries the proof is said of each call on its own (`UnderWay`): the name that it adds next belongs
to its chain and the parent is at hand, and a name that it reads again is there. Turns of others only
add namespaces, which leaves this true (`UnderWay.mono`). Each addition is that of a missing name of
some caller's chain below its parent (`Addition`), so the store stays a forest with one namespace for
each name.
-/

namespace CodeOutline.Graph

open CodeOutline.Text

namespace Store

variable {key name : String} {s : Store}

/-- The names of all namespaces, each with its repository. -/
def namespaceKeys (s : Store) : List (String × String) :=
  s.namespaces.rows.map fun n => (n.repository, n.name)

theorem mem_namespaceKeys_iff_mem_namesIn : (key, name) ∈ s.namespaceKeys ↔ name ∈ s.namesIn key := by
  simp [namespaceKeys, mem_namesIn]

/-- A name that is there cannot be added again. -/
theorem addNamespace_of_mem {parent : Option Id} (h : name ∈ s.namesIn key) :
    s.addNamespace ⟨key, name, parent⟩ = .error (.conflict key name) := by
  have there : (s.namespace? key name).isSome = true := by
    rw [Option.isSome_iff_ne_none]
    intro hnone
    exact namespace?_eq_none_iff_not_mem.1 hnone h
  simp [addNamespace, required, bind, Except.bind, throw, throwThe, MonadExceptOf.throw, there]

end Store

namespace Climb

variable {σ : Type} (access : Access σ) (repository : String)

/-- Calls that need no more operations are those that have returned. -/
theorem remaining_eq_zero_iff {c : Climb} : c.remaining = 0 ↔ ∃ result, c = ended result := by
  constructor
  · intro h
    cases c with
    | done node => exact ⟨.ok node, rfl⟩
    | failed fault => exact ⟨.error fault, rfl⟩
    | lookUp | add | reread => simp [remaining] at h
  · rintro ⟨result, rfl⟩
    cases result <;> rfl

theorem remaining_step_le (c : Climb) (s : σ) :
    (c.step access repository s).1.remaining ≤ c.remaining - 1 := by
  rcases Nat.eq_zero_or_pos c.remaining with h | h
  · obtain ⟨result, rfl⟩ := remaining_eq_zero_iff.1 h
    cases result <;> exact Nat.zero_le _
  · have := remaining_step_lt access repository c s h
    omega

theorem run_ended (result : Except HierarchyFault Namespace) (s : σ) :
    (ended result).run access repository s = (result, s, []) := by
  cases result with
  | ok node => exact run_done node s
  | error fault => exact run_failed fault s

/-- What a call returns and leaves behind does not change by its next operation. -/
theorem run_of_step (c : Climb) (s : σ) :
    let next := c.step access repository s
    (next.1.run access repository next.2.1).1 = (c.run access repository s).1 ∧
      (next.1.run access repository next.2.1).2.1 = (c.run access repository s).2.1 := by
  rcases Nat.eq_zero_or_pos c.remaining with h | h
  · obtain ⟨result, rfl⟩ := remaining_eq_zero_iff.1 h
    cases result <;> exact ⟨rfl, rfl⟩
  · rw [run_step h]
    exact ⟨rfl, rfl⟩

end Climb

/-! ## Calls -/

/-- What a caller asks for. -/
structure Wanted where
  repository : String
  name : Option String
  deriving Repr, DecidableEq

namespace Wanted

/-- The name of the namespace that is asked for. -/
def target (w : Wanted) : String := normalizeName w.name

/-- Why the namespace cannot be had, where it cannot. -/
def refusal (w : Wanted) : Option HierarchyFault :=
  if isBlankText w.repository then some .blankRepository
  else if isWellFormedName w.target then none
  else some (.malformedName (w.name.getD ""))

/-- The call before its first operation. -/
def call (w : Wanted) : Climb :=
  match w.refusal with
  | some fault => .failed fault
  | none => .lookUp w.target []

variable {w : Wanted}

theorem wellFormed_of_refusal (h : w.refusal = none) : isWellFormedName w.target := by
  unfold refusal at h
  split at h
  · cases h
  · split at h
    · assumption
    · cases h

theorem call_of_refusal_none (h : w.refusal = none) : w.call = .lookUp w.target [] := by
  simp only [call, h]

theorem call_of_refusal_some {fault : HierarchyFault} (h : w.refusal = some fault) :
    w.call = .failed fault := by
  simp only [call, h]

/-- A request is served by performing the operations of its call one after the other. -/
theorem getOrCreate_eq_run {σ : Type} (access : Access σ) (w : Wanted) (s : σ) :
    getOrCreate access w.repository w.name s = w.call.run access w.repository s := by
  unfold getOrCreate call refusal target
  split
  · rw [Climb.run_failed]
  · split
    · rfl
    · rw [Climb.run_failed]

end Wanted

/-- A call and what it has been made for. -/
structure Caller where
  wanted : Wanted
  climb : Climb

/-- A store and the calls that use it, each between two of its operations. -/
structure Crowd where
  store : Store
  callers : List Caller

namespace Crowd

/-- Callers that have not done anything yet. -/
def start (s : Store) (wanted : List Wanted) : Crowd :=
  ⟨s, wanted.map fun w => ⟨w, w.call⟩⟩

/-- One caller performs its next operation. -/
def turn (c : Crowd) (i : Nat) : Crowd :=
  match c.callers[i]? with
  | none => c
  | some caller =>
    let (climb, store, _) := caller.climb.step .plain caller.wanted.repository c.store
    ⟨store, c.callers.set i { caller with climb }⟩

/-- The callers take turns in the given order. -/
def after (c : Crowd) (turns : List Nat) : Crowd :=
  turns.foldl turn c

end Crowd

/-! ## One call among others -/

/-- The only thing that an operation does to the store, if it does anything: it adds a missing name of
the chain that is asked for, below its parent. -/
inductive Addition (w : Wanted) (s : Store) : Store → Prop where
  | nothing : Addition w s s
  | added {name : String} {parent : Option Id} {node : Namespace} {t : Store}
      (usable : w.refusal = none) (mem : name ∈ dottedPrefixes w.target)
      (linked : s.Linked w.repository name parent)
      (ok : s.addNamespace ⟨w.repository, name, parent⟩ = .ok (node, t)) : Addition w s t

namespace Addition

variable {w : Wanted} {s t : Store}

theorem consistent (h : Addition w s t) (hs : s.Consistent) : t.Consistent := by
  cases h with
  | nothing => exact hs
  | added _ _ _ ok => exact (hs.addNamespace ok).1

theorem forest (h : Addition w s t) (hs : s.Consistent) (hf : s.Forest) : t.Forest := by
  cases h with
  | nothing => exact hf
  | added usable mem linked ok =>
    have wellFormed := isWellFormedName_of_mem (Wanted.wellFormed_of_refusal usable) mem
    exact hf.addNamespace hs wellFormed linked ok

/-- Rows that are there stay in their place, and a new one stands for a name of the chain. -/
theorem rows (h : Addition w s t) :
    ∃ made, t.namespaces.rows = s.namespaces.rows ++ made ∧
      ∀ n ∈ made, w.refusal = none ∧ w.repository = n.repository ∧
        n.name ∈ dottedPrefixes w.target := by
  cases h with
  | nothing => exact ⟨[], (List.append_nil _).symm, by simp⟩
  | added usable mem linked ok =>
    obtain ⟨_, _, hkey, hname, -, rfl, -, rfl⟩ := Store.addNamespace_ok ok
    cases hkey
    cases hname
    refine ⟨_, rfl, fun n hn => ?_⟩
    rw [List.mem_singleton.1 hn]
    exact ⟨usable, rfl, mem⟩

end Addition

/-- A call in a store that others use too. -/
inductive UnderWay (w : Wanted) (s : Store) : Climb → Prop where
  | refused {fault : HierarchyFault} (refusal : w.refusal = some fault) : UnderWay w s (.failed fault)
  | lookUp {name : String} {waiting : List String} (usable : w.refusal = none)
      (chain : dottedPrefixes w.target = dottedPrefixes name ++ waiting) :
      UnderWay w s (.lookUp name waiting)
  | add {name : String} {parent : Option Id} {above waiting : List String} (usable : w.refusal = none)
      (chain : dottedPrefixes w.target = above ++ name :: waiting)
      (linked : s.Linked w.repository name parent) : UnderWay w s (.add name parent waiting)
  | reread {name : String} {above waiting : List String} (usable : w.refusal = none)
      (chain : dottedPrefixes w.target = above ++ name :: waiting)
      (there : name ∈ s.namesIn w.repository) : UnderWay w s (.reread name waiting)
  | done {node : Namespace} (usable : w.refusal = none) (mem : node ∈ s.namespaces.rows)
      (own : node.repository = w.repository) (named : node.name = w.target) : UnderWay w s (.done node)

namespace UnderWay

variable {w : Wanted} {s t : Store} {c : Climb}

theorem call (w : Wanted) (s : Store) : UnderWay w s w.call := by
  cases h : w.refusal with
  | some fault =>
    rw [Wanted.call_of_refusal_some h]
    exact .refused h
  | none =>
    rw [Wanted.call_of_refusal_none h]
    exact .lookUp h (List.append_nil _).symm

/-- A call fails just for the reason that was there before it began. -/
theorem failed_iff (h : UnderWay w s c) {fault : HierarchyFault} :
    c = .failed fault ↔ w.refusal = some fault := by
  constructor
  · rintro rfl
    cases h with
    | refused refusal => exact refusal
  · intro refusal
    cases h with
    | refused refusal' =>
      rw [refusal, Option.some_inj] at refusal'
      rw [refusal']
    | lookUp usable | add usable | reread usable | done usable =>
      rw [refusal] at usable
      cases usable

/-- What others add in between does not disturb a call. -/
theorem mono (h : UnderWay w s c) (kept : ∀ n ∈ s.namespaces.rows, n ∈ t.namespaces.rows) :
    UnderWay w t c := by
  cases h with
  | refused refusal => exact .refused refusal
  | lookUp usable chain => exact .lookUp usable chain
  | add usable chain linked => exact .add usable chain (linked.mono fun n hn _ => kept n hn)
  | reread usable chain there =>
    obtain ⟨n, hn, own, named⟩ := Store.mem_namesIn.1 there
    exact .reread usable chain (Store.mem_namesIn.2 ⟨n, kept n hn, own, named⟩)
  | done usable mem own named => exact .done usable (kept _ mem) own named

/-- A call that has come to the namespace `node` of its chain goes on below it. -/
theorem reached {node : Namespace} {above waiting : List String} (usable : w.refusal = none)
    (chain : dottedPrefixes w.target = above ++ node.name :: waiting)
    (mem : node ∈ s.namespaces.rows) (own : node.repository = w.repository) :
    UnderWay w s (Climb.reached node waiting) := by
  cases waiting with
  | nil =>
    have ends : (dottedPrefixes w.target).getLast? = some node.name := by
      rw [chain, List.getLast?_concat]
    rw [dottedPrefixes_eq, List.getLast?_concat, Option.some_inj] at ends
    exact .done usable mem own ends.symm
  | cons below rest =>
    have parent : parentName? below = some node.name := parentName?_of_chain chain
    have linked : s.Linked w.repository below (some node.id) := by
      simp only [Store.Linked, parent]
      exact ⟨node, mem, own, rfl, rfl⟩
    rw [← List.singleton_append, ← List.append_assoc] at chain
    exact .add usable chain linked

/-- The next operation of a call keeps it under way, and all that it does to the store is an
addition. -/
theorem step (h : UnderWay w s c) :
    UnderWay w (c.step .plain w.repository s).2.1 (c.step .plain w.repository s).1 ∧
      Addition w s (c.step .plain w.repository s).2.1 := by
  cases h with
  | refused refusal => exact ⟨.refused refusal, .nothing⟩
  | @lookUp name waiting usable chain =>
    simp only [Climb.step, Access.plain]
    split
    · next node hnode =>
      obtain ⟨mem, own, named⟩ := Store.namespace?_eq_some hnode
      rw [dottedPrefixes_eq name, List.append_assoc, List.singleton_append, ← named] at chain
      exact ⟨reached usable chain mem own, .nothing⟩
    · split
      · next parent hparent =>
        rw [dottedPrefixes_of_parent hparent, List.append_assoc, List.singleton_append] at chain
        exact ⟨.lookUp usable chain, .nothing⟩
      · next hroot =>
        rw [dottedPrefixes_of_root hroot] at chain
        have linked : s.Linked w.repository name none := by simp only [Store.Linked, hroot]
        have first : dottedPrefixes w.target = [] ++ name :: waiting := chain
        exact ⟨.add usable first linked, .nothing⟩
  | @add name parent above waiting usable chain linked =>
    by_cases there : name ∈ s.namesIn w.repository
    · -- somebody else was faster
      have taken : s.addNamespace ⟨w.repository, name, parent⟩ = .error (.conflict w.repository name) :=
        Store.addNamespace_of_mem there
      simp only [Climb.step, Access.plain, taken]
      exact ⟨.reread usable chain there, .nothing⟩
    · have ok := Store.addNamespace_of_not_mem there linked.mem
      have mem : name ∈ dottedPrefixes w.target := by simp [chain]
      have addition := Addition.added usable mem linked ok
      simp only [Climb.step, Access.plain, ok]
      refine ⟨reached usable chain ?_ rfl, addition⟩
      exact List.mem_append_right _ (List.mem_singleton_self _)
  | @reread name above waiting usable chain there =>
    simp only [Climb.step, Access.plain]
    split
    · next node hnode =>
      obtain ⟨mem, own, named⟩ := Store.namespace?_eq_some hnode
      rw [← named] at chain
      exact ⟨reached usable chain mem own, .nothing⟩
    · next hnone => exact absurd there (Store.namespace?_eq_none_iff_not_mem.1 hnone)
  | done usable mem own named => exact ⟨.done usable mem own named, .nothing⟩

end UnderWay

/-! ## All of them -/

namespace Crowd

/-- What is true of callers with the given wishes at any time after they have met the store `s₀`. -/
structure Sound (s₀ : Store) (wanted : List Wanted) (c : Crowd) : Prop where
  consistent : c.store.Consistent
  forest : c.store.Forest
  wishes : c.callers.map (·.wanted) = wanted
  callers : ∀ x ∈ c.callers, UnderWay x.wanted c.store x.climb
  kept : ∀ n ∈ s₀.namespaces.rows, n ∈ c.store.namespaces.rows
  asked : ∀ n ∈ c.store.namespaces.rows, n ∈ s₀.namespaces.rows ∨
    ∃ w ∈ wanted, w.refusal = none ∧ w.repository = n.repository ∧ n.name ∈ dottedPrefixes w.target

variable {s₀ : Store} {wanted : List Wanted} {c : Crowd}

theorem turn_of_getElem? {i : Nat} {x : Caller} (h : c.callers[i]? = some x) :
    c.turn i =
      let next := x.climb.step .plain x.wanted.repository c.store
      ⟨next.2.1, c.callers.set i { x with climb := next.1 }⟩ := by
  simp only [turn, h]

namespace Sound

theorem start (hs : s₀.Consistent) (hf : s₀.Forest) (wanted : List Wanted) :
    Sound s₀ wanted (Crowd.start s₀ wanted) where
  consistent := hs
  forest := hf
  wishes := by simp [Crowd.start, Function.comp_def]
  callers := by
    intro x hx
    obtain ⟨w, -, rfl⟩ := List.mem_map.1 hx
    exact .call w s₀
  kept := fun n hn => hn
  asked := fun n hn => .inl hn

theorem turn (h : Sound s₀ wanted c) (i : Nat) : Sound s₀ wanted (c.turn i) := by
  cases hx : c.callers[i]? with
  | none =>
    simp only [Crowd.turn, hx]
    exact h
  | some x =>
    have there : x ∈ c.callers := List.mem_of_getElem? hx
    obtain ⟨way, addition⟩ := (h.callers x there).step
    obtain ⟨made, rows, hmade⟩ := addition.rows
    have kept : ∀ n ∈ c.store.namespaces.rows,
        n ∈ (x.climb.step .plain x.wanted.repository c.store).2.1.namespaces.rows := by
      intro n hn
      rw [rows]
      exact List.mem_append_left _ hn
    rw [turn_of_getElem? hx]
    constructor
    · exact addition.consistent h.consistent
    · exact addition.forest h.consistent h.forest
    · obtain ⟨hi, hxi⟩ := List.getElem?_eq_some_iff.1 hx
      have same : (c.callers.map (·.wanted)).set i x.wanted = c.callers.map (·.wanted) := by
        rw [← hxi, ← List.map_set, List.set_getElem_self]
      rw [List.map_set, same, h.wishes]
    · intro y hy
      rcases List.mem_or_eq_of_mem_set hy with hy | rfl
      · exact (h.callers y hy).mono kept
      · exact way
    · exact fun n hn => kept n (h.kept n hn)
    · intro n hn
      rw [rows, List.mem_append] at hn
      rcases hn with hn | hn
      · exact h.asked n hn
      · have hw : x.wanted ∈ wanted := h.wishes ▸ List.mem_map_of_mem there
        exact .inr ⟨x.wanted, hw, hmade n hn⟩

theorem after (h : Sound s₀ wanted c) (turns : List Nat) : Sound s₀ wanted (c.after turns) := by
  induction turns generalizing c with
  | nil => exact h
  | cons i rest ih => exact ih (h.turn i)

end Sound

/-! ## Turns -/

/-- A turn brings the caller whose turn it is closer to its end; the others stay where they are. -/
theorem remaining_turn {i : Nat} {x : Caller} (h : c.callers[i]? = some x) (j : Nat) :
    ∃ y, (c.turn j).callers[i]? = some y ∧ y.wanted = x.wanted ∧
      y.climb.remaining ≤ x.climb.remaining - if j = i then 1 else 0 := by
  have hi : i < c.callers.length := (List.getElem?_eq_some_iff.1 h).1
  by_cases hj : j = i
  · rw [hj, turn_of_getElem? h, if_pos rfl]
    refine ⟨_, List.getElem?_set_self hi, rfl, ?_⟩
    exact Climb.remaining_step_le ..
  · rw [if_neg hj]
    cases hx : c.callers[j]? with
    | none =>
      refine ⟨x, ?_, rfl, le_refl _⟩
      simp only [turn, hx]
      exact h
    | some other =>
      rw [turn_of_getElem? hx]
      exact ⟨x, by rw [List.getElem?_set_ne hj, h], rfl, le_refl _⟩

theorem remaining_after {i : Nat} {x : Caller} (h : c.callers[i]? = some x) (turns : List Nat) :
    ∃ y, (c.after turns).callers[i]? = some y ∧ y.wanted = x.wanted ∧
      y.climb.remaining ≤ x.climb.remaining - turns.count i := by
  induction turns generalizing c x with
  | nil => exact ⟨x, h, rfl, le_refl _⟩
  | cons j rest ih =>
    obtain ⟨y, hy, wished, hle⟩ := remaining_turn h j
    obtain ⟨z, hz, wished', hle'⟩ := ih hy
    refine ⟨z, hz, wished'.trans wished, ?_⟩
    simp only [List.count_cons, beq_iff_eq]
    omega

/-- A call that nobody interrupts does what it does in a store of its own. -/
theorem after_replicate {i : Nat} {x : Caller} (h : c.callers[i]? = some x) {n : Nat}
    (hn : x.climb.remaining ≤ n) :
    c.after (List.replicate n i) =
      let run := x.climb.run .plain x.wanted.repository c.store
      ⟨run.2.1, c.callers.set i { x with climb := Climb.ended run.1 }⟩ := by
  induction n generalizing c x with
  | zero =>
    obtain ⟨result, hresult⟩ := Climb.remaining_eq_zero_iff.1 (Nat.le_zero.1 hn)
    have hrun : x.climb.run .plain x.wanted.repository c.store = (result, c.store, []) := by
      rw [hresult, Climb.run_ended]
    have hx : { x with climb := Climb.ended result } = x := by rw [← hresult]
    obtain ⟨hi, hxi⟩ := List.getElem?_eq_some_iff.1 h
    have same : c.callers.set i x = c.callers := by rw [← hxi, List.set_getElem_self]
    simp only [hrun, hx, same]
    rfl
  | succ n ih =>
    have hi : i < c.callers.length := (List.getElem?_eq_some_iff.1 h).1
    have hturn := turn_of_getElem? h
    have hnext : (c.turn i).callers[i]? =
        some { x with climb := (x.climb.step .plain x.wanted.repository c.store).1 } := by
      rw [hturn]
      exact List.getElem?_set_self hi
    have hle := Climb.remaining_step_le .plain x.wanted.repository x.climb c.store
    have rest := ih hnext (by dsimp only; omega)
    rw [List.replicate_succ]
    change (c.turn i).after (List.replicate n i) = _
    rw [rest, hturn]
    obtain ⟨hresult, hstore⟩ := Climb.run_of_step .plain x.wanted.repository x.climb c.store
    simp only [List.set_set, hresult, hstore]

/-! ## What any interleaving comes to -/

namespace Sound

/-- Of each namespace that is asked for there is one. -/
theorem same_node (h : Sound s₀ wanted c) {x y : Caller} {m n : Namespace} (hx : x ∈ c.callers)
    (hy : y ∈ c.callers) (hm : x.climb = .done m) (hn : y.climb = .done n)
    (own : x.wanted.repository = y.wanted.repository) (named : x.wanted.target = y.wanted.target) :
    m = n := by
  have wayx := h.callers x hx
  have wayy := h.callers y hy
  rw [hm] at wayx
  rw [hn] at wayy
  cases wayx with
  | done _ memx ownx namedx =>
    cases wayy with
    | done _ memy owny namedy =>
      refine h.consistent.namespace_unique memx memy ?_ ?_
      · rw [ownx, owny, own]
      · rw [namedx, namedy, named]

/-- When all have returned, the chains of all usable requests are there and nothing else is new. -/
theorem mem_namespaceKeys (h : Sound s₀ wanted c)
    (returned : ∀ x ∈ c.callers, ∃ result, x.climb = Climb.ended result) {repository name : String} :
    (repository, name) ∈ c.store.namespaceKeys ↔ (repository, name) ∈ s₀.namespaceKeys ∨
      ∃ w ∈ wanted, w.refusal = none ∧ w.repository = repository ∧
        name ∈ dottedPrefixes w.target := by
  simp only [Store.mem_namespaceKeys_iff_mem_namesIn]
  constructor
  · intro there
    obtain ⟨n, hn, rfl, rfl⟩ := Store.mem_namesIn.1 there
    rcases h.asked n hn with old | asked
    · exact .inl (Store.mem_namesIn.2 ⟨n, old, rfl, rfl⟩)
    · exact .inr asked
  · rintro (old | ⟨w, hw, usable, rfl, above⟩)
    · obtain ⟨n, hn, own, named⟩ := Store.mem_namesIn.1 old
      exact Store.mem_namesIn.2 ⟨n, h.kept n hn, own, named⟩
    · rw [← h.wishes] at hw
      obtain ⟨x, hx, rfl⟩ := List.mem_map.1 hw
      obtain ⟨result, hresult⟩ := returned x hx
      have way := h.callers x hx
      rw [hresult] at way
      cases result with
      | error fault =>
        have refusal := way.failed_iff.1 rfl
        rw [usable] at refusal
        cases refusal
      | ok node =>
        cases way with
        | done _ mem own named =>
          have last := Store.mem_namesIn.2 ⟨node, mem, own, named⟩
          exact h.forest.mem_of_mem_dottedPrefixes last above

end Sound

/-- Whatever callers ask for at once, and in whatever order their operations come: a call fails only
for a blank repository or a malformed name, and then it does; at every moment each namespace hangs
below the one that its name asks for; who asks for the same gets the same; each caller has returned
when it has had its turns; and when all have, the names that are stored are those from before and the
chains of all names asked for, each of them once. The store may be one that earlier callers have left
behind, be they through or not. -/
theorem interleaved_calls_create_each_once (earlier wanted : List Wanted) (before turns : List Nat) :
    let s := ((start {} earlier).after before).store
    let c := (start s wanted).after turns
    (c.callers.map (·.wanted) = wanted ∧
      ∀ x ∈ c.callers, ∀ fault, x.climb = .failed fault ↔ x.wanted.refusal = some fault) ∧
    (∀ n ∈ c.store.namespaces.rows, c.store.Linked n.repository n.name n.parent) ∧
    (∀ x ∈ c.callers, ∀ n, x.climb = .done n →
      n ∈ c.store.namespaces.rows ∧ n.repository = x.wanted.repository ∧ n.name = x.wanted.target) ∧
    (∀ x ∈ c.callers, ∀ y ∈ c.callers, ∀ m n, x.climb = .done m → y.climb = .done n →
      x.wanted.repository = y.wanted.repository → x.wanted.target = y.wanted.target → m = n) ∧
    (∀ i w, wanted[i]? = some w → w.call.remaining ≤ turns.count i →
      ∃ x result, c.callers[i]? = some x ∧ x.wanted = w ∧ x.climb = Climb.ended result) ∧
    c.store.namespaceKeys.Nodup ∧
    ((∀ x ∈ c.callers, ∃ result, x.climb = Climb.ended result) → ∀ repository name,
      (repository, name) ∈ c.store.namespaceKeys ↔ (repository, name) ∈ s.namespaceKeys ∨
        ∃ w ∈ wanted, w.refusal = none ∧ w.repository = repository ∧
          name ∈ dottedPrefixes w.target) := by
  intro s c
  have first : Sound {} earlier ((start {} earlier).after before) :=
    (Sound.start Store.consistent_empty Store.forest_empty earlier).after before
  have sound : Sound s wanted c := (Sound.start first.consistent first.forest wanted).after turns
  refine ⟨⟨sound.wishes, fun x hx fault => (sound.callers x hx).failed_iff⟩, sound.forest.linked,
    fun x hx n hn => ?_, fun x hx y hy m n => sound.same_node hx hy, fun i w hw enough => ?_,
    sound.consistent.namespaceKeys, fun returned repository name => sound.mem_namespaceKeys returned⟩
  · have way := sound.callers x hx
    rw [hn] at way
    cases way with
    | done _ mem own named => exact ⟨mem, own, named⟩
  · have hx : (start s wanted).callers[i]? = some ⟨w, w.call⟩ := by
      simp only [start, List.getElem?_map, hw, Option.map_some]
    obtain ⟨y, hy, wished, hle⟩ := remaining_after hx turns
    have through : y.climb.remaining = 0 := by
      dsimp only at hle
      omega
    obtain ⟨result, hresult⟩ := Climb.remaining_eq_zero_iff.1 through
    exact ⟨y, result, hy, wished, hresult⟩

-- The first caller finds that `a` is missing, is beaten to it by the second one, and adds `a.b`.
example :
    let c := (start {} [⟨"r", some "a.b"⟩, ⟨"r", some "a"⟩]).after [0, 0, 1, 1, 0, 0, 0]
    c.store.namespaceKeys = [("r", "a"), ("r", "a.b")] ∧
      c.callers.map (·.climb.remaining) = [0, 0] := by
  decide +kernel

end Crowd

end CodeOutline.Graph
