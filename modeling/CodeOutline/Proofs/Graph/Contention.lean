import CodeOutline.Proofs.Graph.Climb

/-!
# Calls whose store changes under them

A call for a namespace reaches the store through an access, and between its operations others may have
done something. As long as the access is faithful, that is, answers from the store behind it and lets
others only add to it, each namespace that the call adds goes where its name asks for, so the store
stays a forest. A store with rivals and lost rows is reached by such an access, and so is a store of
one's own, for which there are none.
-/

namespace CodeOutline.Graph

open CodeOutline.Text

/-- Consistent, and a forest. -/
structure Store.Sound (s : Store) : Prop where
  consistent : s.Consistent
  forest : s.Forest

theorem Store.FactRun.sound {key : String} {s t : Store} (h : Store.FactRun key s t) (hs : s.Sound) :
    t.Sound :=
  ⟨(h.consistent hs.consistent).1, h.forest hs.consistent hs.forest⟩

/-- What others may do to a store: they add namespaces, and leave a sound store sound. -/
structure Store.Grows (s t : Store) : Prop where
  kept : ∀ n ∈ s.namespaces.rows, n ∈ t.namespaces.rows
  sound : s.Sound → t.Sound

theorem Store.Grows.refl (s : Store) : s.Grows s := ⟨fun _ hn => hn, fun h => h⟩

variable {σ : Type}

/-- The access answers from a store. A look-up may miss a namespace, and an addition may be refused for
any reason, but what they say has happened has happened. -/
structure Access.Faithful (access : Access σ) (store : σ → Store) (repository : String) : Prop where
  grows : ∀ name d, (store d).Grows (store (access.find repository name d).2.1)
  found : ∀ name d node, (access.find repository name d).1 = some node →
    node ∈ (store (access.find repository name d).2.1).namespaces.rows ∧
      node.repository = repository ∧ node.name = name
  added : ∀ name parent d node d', access.add repository name parent d = .ok (node, d') →
    (store d).addNamespace ⟨repository, name, parent⟩ = .ok (node, store d')

/-- The call is one for `target`: the names that it has still to make end the chain, and the namespace
that it is about to add has its parent at hand. -/
def Climb.IsFor (repository target : String) (s : Store) : Climb → Prop
  | lookUp name waiting => dottedPrefixes target = dottedPrefixes name ++ waiting
  | add name parent waiting =>
    (∃ above, dottedPrefixes target = above ++ name :: waiting) ∧ s.Linked repository name parent
  | reread name waiting => ∃ above, dottedPrefixes target = above ++ name :: waiting
  | done _ | failed _ => True

namespace Climb

variable {access : Access σ} {store : σ → Store} {repository target : String} {s : Store}

/-- A call that has come to a namespace of its chain goes on below it. -/
theorem isFor_reached {node : Namespace} {above waiting : List String}
    (chain : dottedPrefixes target = above ++ node.name :: waiting)
    (mem : node ∈ s.namespaces.rows) (own : node.repository = repository) :
    (reached node waiting).IsFor repository target s := by
  cases waiting with
  | nil => trivial
  | cons below rest =>
    have linked : s.Linked repository below (some node.id) := by
      simp only [Store.Linked, parentName?_of_chain chain]
      exact ⟨node, mem, own, rfl, rfl⟩
    exact ⟨⟨above ++ [node.name], by rw [chain, List.append_assoc, List.singleton_append]⟩, linked⟩

theorem isFor_step (faithful : access.Faithful store repository) (hname : isWellFormedName target)
    (c : Climb) (d : σ) (h : c.IsFor repository target (store d)) (hs : (store d).Sound) :
    (c.step access repository d).1.IsFor repository target
        (store (c.step access repository d).2.1) ∧
      (store (c.step access repository d).2.1).Sound := by
  cases c with
  | done | failed => exact ⟨trivial, hs⟩
  | lookUp name waiting =>
    have sound := (faithful.grows name d).sound hs
    simp only [step]
    split
    · next node hnode =>
      obtain ⟨mem, own, named⟩ := faithful.found name d node hnode
      have chain : dottedPrefixes target =
          (parentName? name).elim [] dottedPrefixes ++ node.name :: waiting := by
        rw [named, ← List.singleton_append, ← List.append_assoc, ← dottedPrefixes_eq]
        exact h
      exact ⟨isFor_reached chain mem own, sound⟩
    · split
      · next parent hparent =>
        refine ⟨Eq.trans h ?_, sound⟩
        rw [dottedPrefixes_of_parent hparent, List.append_assoc, List.singleton_append]
      · next hroot =>
        refine ⟨⟨⟨[], Eq.trans h ?_⟩, ?_⟩, sound⟩
        · rw [dottedPrefixes_of_root hroot]
          rfl
        · simp only [Store.Linked, hroot]
  | reread name waiting =>
    have sound := (faithful.grows name d).sound hs
    simp only [step]
    split
    · next node hnode =>
      obtain ⟨mem, own, named⟩ := faithful.found name d node hnode
      obtain ⟨above, chain⟩ := h
      rw [← named] at chain
      exact ⟨isFor_reached chain mem own, sound⟩
    · exact ⟨trivial, sound⟩
  | add name parent waiting =>
    obtain ⟨⟨above, chain⟩, linked⟩ := h
    simp only [step]
    split
    · next node d' hadd =>
      have ok := faithful.added name parent d node d' hadd
      have wellFormed := isWellFormedName_of_mem hname (chain ▸ by simp : name ∈ dottedPrefixes target)
      have sound : (store d').Sound := ⟨(hs.consistent.addNamespace ok).1,
        hs.forest.addNamespace hs.consistent wellFormed linked ok⟩
      obtain ⟨_, _, hown, hnamed, -, hrow, -, e⟩ := Store.addNamespace_ok ok
      cases hown
      cases hnamed
      have named : node.name = name := by rw [hrow]
      have mem : node ∈ (store d').namespaces.rows := by
        rw [e]
        exact List.mem_append_right _ (List.mem_singleton_self _)
      rw [← named] at chain
      exact ⟨isFor_reached chain mem (by rw [hrow]), sound⟩
    · exact ⟨⟨above, chain⟩, hs⟩
    · exact ⟨trivial, hs⟩

end Climb

variable {repository : String}

/-- Through a faithful access a call keeps the store sound, whatever becomes of it. -/
theorem Access.Faithful.getOrCreate_sound {access : Access σ} {store : σ → Store}
    (h : access.Faithful store repository) (name : Option String) {d : σ} (hs : (store d).Sound) :
    (store (getOrCreate access repository name d).2.1).Sound := by
  unfold getOrCreate
  split
  · exact hs
  · split
    · next hname =>
      have first : (Climb.lookUp (normalizeName name) []).IsFor repository (normalizeName name)
          (store d) := (List.append_nil _).symm
      refine (Climb.run_invariant
        (I := fun c d => c.IsFor repository (normalizeName name) (store d) ∧ (store d).Sound)
        (fun c d hc => ?_) _ d ⟨first, hs⟩).2
      exact Climb.isFor_step h hname c d hc.1 hc.2
    · exact hs

/-- A call in a store of one's own adds to it, and does nothing else. -/
theorem getOrCreate_plain_grows (repository : String) (name : Option String) (s : Store) :
    s.Grows (getOrCreate .plain repository name s).2.1 where
  kept := by
    intro n hn
    unfold getOrCreate
    split
    · exact hn
    · split
      · refine Climb.run_keeps (P := fun t : Store => n ∈ t.namespaces.rows) (fun _ _ h => h) ?_ _ hn
        intro below parent t node u h ok
        obtain ⟨_, _, -, -, -, -, -, rfl⟩ := Store.addNamespace_ok ok
        exact List.mem_append_left _ h
      · exact hn
  sound := (getOrCreate_run repository name s).sound

/-- Rivals add namespaces, and lost rows are never said to be there. -/
theorem Contention.faithful (repository : String) :
    Contention.access.Faithful Contention.store repository where
  grows name c := by
    simp only [Contention.access]
    split
    · exact .refl _
    · split
      · exact getOrCreate_plain_grows repository (some name) c.store
      · exact .refl _
  found name c node := by
    simp only [Contention.access]
    split
    · nofun
    · split
      · nofun
      · exact Store.namespace?_eq_some
  added name parent c node c' := by
    simp only [Contention.access]
    split
    · nofun
    · intro ok
      cases hadd : c.store.addNamespace ⟨repository, name, parent⟩ with
      | error fault =>
        rw [hadd] at ok
        cases ok
      | ok made =>
        rw [hadd] at ok
        cases ok
        rfl

end CodeOutline.Graph
