import CodeOutline.Graph.Hierarchy
import CodeOutline.Proofs.Graph.Chain
import CodeOutline.Proofs.Graph.FactStep

/-!
# Making a chain of namespaces

What a call for a namespace does to a store that nobody else uses: it finds the longest part of the
chain that is there and makes the rest, parents first. The call cannot fail, since each name that it
adds was missing on the way up and the parent is at hand on the way down. What is new is a row for each
name that was missing (`Store.withChain`), and nothing else has changed.

Whatever the access, a call keeps what each operation on the store keeps (`run_keeps`).
-/

namespace CodeOutline.Graph

open CodeOutline.Log CodeOutline.Text

namespace Store

variable {key name : String} {s t : Store}

/-- The names of the namespaces of a repository, in the order in which they were made. -/
def namesIn (s : Store) (key : String) : List String :=
  (s.namespacesOf key).map (·.name)

theorem mem_namesIn :
    name ∈ s.namesIn key ↔ ∃ n ∈ s.namespaces.rows, n.repository = key ∧ n.name = name := by
  simp [namesIn, namespacesOf, and_assoc]

theorem namespace?_eq_none_iff_not_mem : s.namespace? key name = none ↔ name ∉ s.namesIn key := by
  simp [namespace?, List.find?_eq_none, mem_namesIn]

/-- A new row of a name that was not there is the one that is found under that name. -/
theorem namespace?_push_of_not_mem {node : Namespace} (own : node.repository = key)
    (h : node.name ∉ s.namesIn key) :
    ({ s with namespaces := s.namespaces.push node } : Store).namespace? key node.name = some node := by
  have hnone : s.namespace? key node.name = none := namespace?_eq_none_iff_not_mem.2 h
  show (s.namespaces.rows ++ [node]).find? _ = some node
  rw [namespace?] at hnone
  rw [List.find?_append, hnone]
  simp [own]

/-! ### Rows of a chain -/

/-- The rows of a chain under the numbers from `next` on, each below the one before it, and the first
one below `parent`. -/
def chainRows (key : String) (next : Id) (parent : Option Id) : List String → List Namespace
  | [] => []
  | name :: rest => ⟨next, key, name, parent⟩ :: chainRows key (next + 1) (some next) rest

/-- The number of the last row of such a chain, or that of its parent where it has no row. -/
def chainEnd (next : Id) (parent : Option Id) : List String → Option Id
  | [] => parent
  | _ :: rest => chainEnd (next + 1) (some next) rest

/-- The store with a chain of new namespaces below `parent`. -/
def withChain (s : Store) (key : String) (parent : Option Id) (names : List String) : Store :=
  { s with namespaces :=
    ⟨s.namespaces.rows ++ chainRows key s.namespaces.nextId parent names,
      s.namespaces.lastId + names.length⟩ }

/-- The number of the namespace that a part of a chain ends with. -/
def numberAt (s : Store) (key : String) (names : List String) : Option Id :=
  names.getLast?.bind fun name => (s.namespace? key name).map (·.id)

/-- Numbers that are handed out one after the other. -/
theorem number_succ (next : Int) (n : Nat) : next + 1 + n = next + (n + 1 : Nat) := by
  omega

theorem chainRows_concat (key : String) (next : Id) (parent : Option Id) (names : List String)
    (name : String) :
    chainRows key next parent (names ++ [name]) =
      chainRows key next parent names ++
        [⟨next + names.length, key, name, chainEnd next parent names⟩] := by
  induction names generalizing next parent with
  | nil => simp [chainRows, chainEnd]
  | cons first rest ih =>
    rw [List.cons_append, chainRows, ih, chainRows, chainEnd, List.length_cons, ← number_succ,
      List.cons_append]

theorem chainEnd_concat (next : Id) (parent : Option Id) (names : List String) (name : String) :
    chainEnd next parent (names ++ [name]) = some (next + names.length) := by
  induction names generalizing next parent with
  | nil => simp [chainEnd]
  | cons first rest ih =>
    rw [List.cons_append, chainEnd, ih, List.length_cons, number_succ]

theorem repository_of_mem_chainRows {next : Id} {parent : Option Id} {names : List String}
    {n : Namespace} (h : n ∈ chainRows key next parent names) : n.repository = key := by
  induction names generalizing next parent with
  | nil => cases h
  | cons first rest ih =>
    rcases List.mem_cons.1 h with rfl | h
    · rfl
    · exact ih h

theorem map_name_chainRows (key : String) (next : Id) (parent : Option Id) (names : List String) :
    (chainRows key next parent names).map (·.name) = names := by
  induction names generalizing next parent with
  | nil => rfl
  | cons first rest ih => rw [chainRows, List.map_cons, ih]

@[simp] theorem withChain_nil (s : Store) (key : String) (parent : Option Id) :
    s.withChain key parent [] = s := by
  simp [withChain, chainRows]

theorem nextId_withChain (s : Store) (key : String) (parent : Option Id) (names : List String) :
    (s.withChain key parent names).namespaces.nextId = s.namespaces.nextId + names.length :=
  Int.add_right_comm ..

/-- A chain grows by one row at a time. -/
theorem withChain_concat (s : Store) (key : String) (parent : Option Id) (names : List String)
    (name : String) :
    s.withChain key parent (names ++ [name]) =
      let u := s.withChain key parent names
      { u with namespaces := u.namespaces.push ⟨u.namespaces.nextId, key, name,
          chainEnd s.namespaces.nextId parent names⟩ } := by
  have number : (s.withChain key parent names).namespaces.nextId =
      s.namespaces.nextId + names.length := nextId_withChain s key parent names
  have last : s.namespaces.lastId + ((names ++ [name]).length : Int) =
      (s.withChain key parent names).namespaces.nextId := by
    rw [number, List.length_append, List.length_singleton, ← number_succ]
    rfl
  rw [withChain, chainRows_concat, ← number, last, ← List.append_assoc]
  rfl

theorem namesIn_withChain (s : Store) (key : String) (parent : Option Id) (names : List String) :
    (s.withChain key parent names).namesIn key = s.namesIn key ++ names := by
  have own : (chainRows key s.namespaces.nextId parent names).filter (·.repository = key) =
      chainRows key s.namespaces.nextId parent names :=
    List.filter_eq_self.2 fun n hn => decide_eq_true (repository_of_mem_chainRows hn)
  simp only [namesIn, namespacesOf, withChain, List.filter_append, own, List.map_append,
    map_name_chainRows]

/-- A name that is not there yet can be added below a parent that is. -/
theorem addNamespace_of_not_mem {parent : Option Id} (h : name ∉ s.namesIn key)
    (hp : ∀ p ∈ parent, s.namespaces.Has (·.id) p) :
    s.addNamespace ⟨key, name, parent⟩ =
      .ok (⟨s.namespaces.nextId, key, name, parent⟩,
        { s with namespaces := s.namespaces.push ⟨s.namespaces.nextId, key, name, parent⟩ }) := by
  have hall : (parent.all fun p => p = s.namespaces.nextId || s.hasNamespace p) = true := by
    simp only [Option.all_eq_true, Bool.or_eq_true]
    exact fun p hmem => .inr (hasNamespace_iff.2 (hp p hmem))
  have hnone := namespace?_eq_none_iff_not_mem.2 h
  simp [addNamespace, required, bind, Except.bind, pure, Except.pure, hnone, hall]

end Store

namespace Climb

variable {σ : Type} {access : Access σ} {repository : String}

/-! ## Runs under any access -/

theorem run_done (node : Namespace) (s : σ) :
    (done node).run access repository s = (.ok node, s, []) := by
  rw [run]

theorem run_failed (fault : HierarchyFault) (s : σ) :
    (failed fault).run access repository s = (.error fault, s, []) := by
  rw [run]

/-- A call that has not ended goes on with the next operation. -/
theorem run_step {c : Climb} (h : 0 < c.remaining) (s : σ) :
    c.run access repository s =
      let next := c.step access repository s
      let rest := next.1.run access repository next.2.1
      (rest.1, rest.2.1, next.2.2 ++ rest.2.2) := by
  cases c with
  | done | failed => exact absurd h (by simp [remaining])
  | lookUp | add | reread => rw [run]

/-- A call that has ended with the given result. -/
def ended : Except HierarchyFault Namespace → Climb
  | .ok node => done node
  | .error fault => failed fault

/-- What each operation keeps of a call and its store holds when the call has ended. -/
theorem run_invariant {I : Climb → σ → Prop}
    (step : ∀ c s, I c s → I (c.step access repository s).1 (c.step access repository s).2.1)
    (c : Climb) (s : σ) (h : I c s) :
    I (ended (c.run access repository s).1) (c.run access repository s).2.1 := by
  induction c, s using run.induct access repository with
  | case1 s node => rwa [run_done]
  | case2 s fault => rwa [run_failed]
  | case3 s name waiting _ _ _ _ _ ih | case5 s name waiting _ _ _ _ _ ih =>
    rw [run_step (by simp only [remaining]; omega)]
    exact ih (step _ _ h)
  | case4 s name parent waiting _ _ _ _ _ ih =>
    rw [run_step (by simp only [remaining]; omega)]
    exact ih (step _ _ h)

/-- What every look-up and every addition keeps, a call keeps. -/
theorem run_keeps {P : σ → Prop} (hfind : ∀ name s, P s → P (access.find repository name s).2.1)
    (hadd : ∀ name parent s node t, P s → access.add repository name parent s = .ok (node, t) → P t)
    (c : Climb) {s : σ} (h : P s) : P (c.run access repository s).2.1 := by
  refine run_invariant (I := fun _ s => P s) (fun c s h => ?_) c s h
  cases c with
  | done | failed => exact h
  | lookUp name =>
    have := hfind name s h
    simp only [step]
    split
    · exact this
    · split <;> exact this
  | reread name =>
    have := hfind name s h
    simp only [step]
    split <;> exact this
  | add name parent =>
    simp only [step]
    split
    · next ok => exact hadd _ _ _ _ _ h ok
    · exact h
    · exact h

/-! ## A store of one's own -/

/-- A call for `target` that has met the store `s₀`, at any time. Of the chain of `target`, `found` is
there, `made` has been made by now, and the rest is still to be made. -/
inductive OnItsWay (key target : String) (s₀ : Store) : Climb → Store → Prop where
  | lookUp {name : String} {waiting : List String}
      (chain : dottedPrefixes target = dottedPrefixes name ++ waiting)
      (missing : ∀ w ∈ waiting, w ∉ s₀.namesIn key) : OnItsWay key target s₀ (.lookUp name waiting) s₀
  | add {name : String} {parent : Option Id} {waiting found made : List String} {s : Store}
      (chain : dottedPrefixes target = found ++ made ++ name :: waiting)
      (last : ∀ x ∈ found.getLast?, x ∈ s₀.namesIn key)
      (missing : ∀ x ∈ made ++ name :: waiting, x ∉ s₀.namesIn key)
      (grows : s = s₀.withChain key (s₀.numberAt key found) made)
      (place : parent = Store.chainEnd s₀.namespaces.nextId (s₀.numberAt key found) made)
      (run : Store.FactRun key s₀ s) (linked : s.Linked key name parent) :
      OnItsWay key target s₀ (.add name parent waiting) s
  | done {node : Namespace} {found made : List String} {s : Store}
      (chain : dottedPrefixes target = found ++ made)
      (last : ∀ x ∈ found.getLast?, x ∈ s₀.namesIn key) (missing : ∀ x ∈ made, x ∉ s₀.namesIn key)
      (grows : s = s₀.withChain key (s₀.numberAt key found) made) (run : Store.FactRun key s₀ s)
      (there : s.namespace? key target = some node) : OnItsWay key target s₀ (.done node) s

namespace OnItsWay

variable {key target : String} {s₀ s : Store}

/-- The chain is at hand as far as `node`, which ends the part `found ++ made`. -/
theorem reached {node : Namespace} {waiting : List String} (found made : List String)
    (chain : dottedPrefixes target = found ++ made ++ waiting)
    (ends : (found ++ made).getLast? = some node.name) (last : ∀ x ∈ found.getLast?, x ∈ s₀.namesIn key)
    (missing : ∀ x ∈ made ++ waiting, x ∉ s₀.namesIn key)
    (grows : s = s₀.withChain key (s₀.numberAt key found) made)
    (place : some node.id = Store.chainEnd s₀.namespaces.nextId (s₀.numberAt key found) made)
    (run : Store.FactRun key s₀ s) (there : s.namespace? key node.name = some node) :
    OnItsWay key target s₀ (Climb.reached node waiting) s := by
  obtain ⟨front, e⟩ := List.getLast?_eq_some_iff.1 ends
  cases waiting with
  | nil =>
    rw [List.append_nil] at chain missing
    rw [← chain, dottedPrefixes_eq, List.getLast?_concat, Option.some_inj] at ends
    exact .done chain last missing grows run (ends ▸ there)
  | cons w rest =>
    refine .add chain last missing grows place run ?_
    have hw : parentName? w = some node.name := by
      have below : dottedPrefixes target = front ++ node.name :: w :: rest := by
        rw [chain, e, List.append_assoc, List.singleton_append]
      exact parentName?_of_chain below
    obtain ⟨mem, own, -⟩ := Store.namespace?_eq_some there
    simp only [Store.Linked, hw]
    exact ⟨node, mem, own, rfl, rfl⟩

theorem step (wellFormed : isWellFormedName target) (c : Climb) (s : Store)
    (h : OnItsWay key target s₀ c s) :
    OnItsWay key target s₀ (c.step .plain key s).1 (c.step .plain key s).2.1 := by
  cases h with
  | @lookUp name waiting chain missing =>
    simp only [Climb.step, Access.plain]
    split
    · next node hnode =>
      obtain ⟨mem, own, hname⟩ := Store.namespace?_eq_some hnode
      have ends : (dottedPrefixes name).getLast? = some node.name := by
        rw [dottedPrefixes_eq, List.getLast?_concat, hname]
      have there : s₀.namespace? key node.name = some node := by
        rw [hname, hnode]
      have place : s₀.numberAt key (dottedPrefixes name) = some node.id := by
        rw [Store.numberAt, ends, Option.bind_some, there, Option.map_some]
      refine reached (dottedPrefixes name) [] (by rwa [List.append_nil])
        (by rwa [List.append_nil]) (fun x hx => ?_) missing (Store.withChain_nil ..).symm place.symm
        .refl there
      rw [ends, Option.mem_some_iff] at hx
      exact hx ▸ Store.mem_namesIn.2 ⟨node, mem, own, rfl⟩
    · next hnone =>
      have hname := Store.namespace?_eq_none_iff_not_mem.1 hnone
      have missing' : ∀ w ∈ name :: waiting, w ∉ s₀.namesIn key := by
        simpa using ⟨hname, missing⟩
      split
      · next parent hp =>
        rw [dottedPrefixes_of_parent hp, List.append_assoc, List.singleton_append] at chain
        exact .lookUp chain missing'
      · next hp =>
        rw [dottedPrefixes_of_root hp] at chain
        have nothing : dottedPrefixes target = [] ++ [] ++ name :: waiting := chain
        refine .add nothing (by simp) missing' (Store.withChain_nil ..).symm rfl .refl ?_
        simp only [Store.Linked, hp]
  | @add name parent waiting found made s chain last missing grows place run linked =>
    have hfresh : name ∉ s.namesIn key := by
      have nodup := nodup_dottedPrefixes target
      rw [chain, List.append_assoc, List.nodup_append, List.nodup_append] at nodup
      rw [grows, Store.namesIn_withChain, List.mem_append, not_or]
      exact ⟨missing name (by simp), fun hmade =>
        nodup.2.1.2.2 name hmade name (List.mem_cons_self ..) rfl⟩
    have ok := Store.addNamespace_of_not_mem hfresh linked.mem
    have hstep := Store.FactStep.addNamespace
      (isWellFormedName_of_mem wellFormed (chain ▸ by simp : name ∈ dottedPrefixes target)) linked ok
    simp only [Climb.step, Access.plain, ok]
    refine reached found (made ++ [name]) (by simp [chain]) (by simp) last
      (by simpa using missing) ?_ ?_ (run.tail hstep) (Store.namespace?_push_of_not_mem rfl hfresh)
    · rw [Store.withChain_concat, ← grows, ← place]
    · rw [Store.chainEnd_concat, grows, Store.nextId_withChain]
  | done chain last missing grows run there => exact .done chain last missing grows run there

end OnItsWay

end Climb

/-- `node` is the namespace `target` of a repository, and `t` is `s` with the part `made` of its chain,
which was missing, below the part `found`, whose end was there. -/
structure Created (key target : String) (s t : Store) (node : Namespace) (found made : List String) :
    Prop where
  chain : dottedPrefixes target = found ++ made
  last : ∀ x ∈ found.getLast?, x ∈ s.namesIn key
  missing : ∀ x ∈ made, x ∉ s.namesIn key
  grows : t = s.withChain key (s.numberAt key found) made
  run : Store.FactRun key s t
  there : t.namespace? key target = some node

namespace Created

variable {key target : String} {s t : Store} {node : Namespace} {found made : List String}

theorem names (h : Created key target s t node found made) :
    t.namesIn key = s.namesIn key ++ made := by
  rw [h.grows, Store.namesIn_withChain]

theorem frame (h : Created key target s t node found made) :
    t = { s with namespaces := t.namespaces } := by
  rw [h.grows]
  rfl

/-- Where nothing was missing nothing has changed. -/
theorem untouched (h : Created key target s t node found made) (nothing : made = []) : t = s := by
  rw [h.grows, nothing, Store.withChain_nil]

theorem mem (h : Created key target s t node found made) : node ∈ t.namespaces.rows :=
  (Store.namespace?_eq_some h.there).1

theorem own (h : Created key target s t node found made) : node.repository = key :=
  (Store.namespace?_eq_some h.there).2.1

theorem named (h : Created key target s t node found made) : node.name = target :=
  (Store.namespace?_eq_some h.there).2.2

end Created

variable {key : String} {name : Option String} {s t : Store}

/-- A call with usable names never fails in a store of one's own. -/
theorem getOrCreate_plain (hkey : isBlankText key = false)
    (hname : isWellFormedName (normalizeName name)) (s : Store) :
    ∃ node t events found made, getOrCreate .plain key name s = (.ok node, t, events) ∧
      Created key (normalizeName name) s t node found made := by
  have start : Climb.OnItsWay key (normalizeName name) s (.lookUp (normalizeName name) []) s :=
    .lookUp (List.append_nil _).symm (by simp)
  have final := Climb.run_invariant (Climb.OnItsWay.step hname) _ s start
  unfold getOrCreate
  rw [hkey, hname]
  cases hrun : (Climb.lookUp (normalizeName name) []).run .plain key s with
  | mk result rest =>
    rw [hrun] at final
    cases result with
    | error fault => cases final
    | ok node =>
      cases final with
      | done chain last missing grows run there =>
        exact ⟨node, rest.1, rest.2, _, _, by simp, ⟨chain, last, missing, grows, run, there⟩⟩

/-- The fault lies in what was asked for, not in the store. -/
def HierarchyFault.isInvalidArgument : HierarchyFault → Bool
  | blankRepository | malformedName _ => true
  | unreadable _ | store _ => false

/-- Without usable names nothing happens. -/
theorem getOrCreate_unusable {σ : Type} (access : Access σ) (s : σ)
    (h : isBlankText key = true ∨ isWellFormedName (normalizeName name) = false) :
    ∃ fault, getOrCreate access key name s = (.error fault, s, []) ∧ fault.isInvalidArgument := by
  unfold getOrCreate
  split
  · exact ⟨_, rfl, rfl⟩
  · next hkey =>
    rw [h.resolve_left hkey]
    exact ⟨_, rfl, rfl⟩

/-- Whatever it is asked for, a call in a store of one's own only adds namespaces where they belong. -/
theorem getOrCreate_run (key : String) (name : Option String) (s : Store) :
    Store.FactRun key s (getOrCreate .plain key name s).2.1 := by
  cases hkey : isBlankText key with
  | true =>
    obtain ⟨fault, hget, -⟩ := getOrCreate_unusable .plain s (.inl hkey)
    rw [hget]
  | false =>
    cases hname : isWellFormedName (normalizeName name) with
    | false =>
      obtain ⟨fault, hget, -⟩ := getOrCreate_unusable .plain s (.inr hname)
      rw [hget]
    | true =>
      obtain ⟨node, t, events, found, made, hget, created⟩ := getOrCreate_plain hkey hname s
      rw [hget]
      exact created.run

/-- In a forest the whole chain above a namespace is there. -/
theorem Store.Forest.mem_of_mem_dottedPrefixes (h : s.Forest) {name above : String}
    (hname : name ∈ s.namesIn key) (ha : above ∈ dottedPrefixes name) : above ∈ s.namesIn key := by
  induction name using chain_induction with
  | root name hroot =>
    rw [dottedPrefixes_of_root hroot, List.mem_singleton] at ha
    rwa [ha]
  | child name parent hp ih =>
    rw [dottedPrefixes_of_parent hp, List.mem_append, List.mem_singleton] at ha
    rcases ha with ha | rfl
    · obtain ⟨n, hn, hown, hnamed⟩ := Store.mem_namesIn.1 hname
      have linked := h.linked n hn
      simp only [Store.Linked, hnamed, hp] at linked
      obtain ⟨m, hm, hmown, hmnamed, -⟩ := linked
      exact ih (Store.mem_namesIn.2 ⟨m, hm, hmown.trans hown, hmnamed⟩) ha
    · exact hname

/-- In a forest exactly the names of the chain that were missing are new, in their order. -/
theorem Created.names_of_forest {target : String} {node : Namespace} {found made : List String}
    (h : Created key target s t node found made) (hs : s.Forest) :
    t.namesIn key = s.namesIn key ++ (dottedPrefixes target).filter (· ∉ s.namesIn key) := by
  have hfound : ∀ x ∈ found, x ∈ s.namesIn key := by
    intro x hx
    obtain ⟨front, last, rfl⟩ := List.eq_nil_or_concat' found |>.resolve_left (List.ne_nil_of_mem hx)
    have chain := h.chain
    rw [List.append_assoc, List.singleton_append] at chain
    rw [← dottedPrefixes_of_append chain] at hx
    exact hs.mem_of_mem_dottedPrefixes (h.last last (by simp)) hx
  rw [h.names, h.chain, List.filter_append, List.filter_eq_nil_iff.2 (by simpa using hfound),
    List.nil_append, List.filter_eq_self.2 (by simpa using h.missing)]

end CodeOutline.Graph
