import CodeOutline.Proofs.Graph.Contention
import CodeOutline.Proofs.Graph.Needed

/-!
# Emptying

The removal of empty namespaces, round by round. One round removes the namespaces that nothing depends
on; what they leave bare goes in the next round. `Emptied` is a run of this loop: its rounds, each of
which removes something, and the store after the last of them.

A namespace stays if it is `Occupied`. A round never removes such a namespace, and it makes none
(`occupied_round`); a forest in which no namespace is empty has no others (`Forest.occupied`). So the
rounds remove all that is not occupied, and nothing else (`Emptied.mem_gone`).
-/

namespace CodeOutline.Graph.Store

variable {s t : Store} {key : String} {n : Namespace} {rounds : List (List Namespace)}

/-- The store after one round. -/
def round (s : Store) (key : String) : Store :=
  s.dropNamespaces ((s.emptyNamespaces key).map (·.id))

/-- A run of the loop from `s` to `t`: the namespaces that go in each of its rounds. It stops when a
round would find nothing to remove. -/
inductive Emptied (key : String) : Store → List (List Namespace) → Store → Prop where
  | done {s : Store} (none : s.emptyNamespaces key = []) : Emptied key s [] s
  | round {s t : Store} {rounds : List (List Namespace)} (some : s.emptyNamespaces key ≠ [])
      (rest : Emptied key (s.round key) rounds t) : Emptied key s (s.emptyNamespaces key :: rounds) t

/-! ## One round -/

theorem mem_emptyNamespaces : n ∈ s.emptyNamespaces key ↔ n ∈ s.namespaces.rows ∧
    n.repository = key ∧ (∀ f ∈ s.files.rows, f.namespaceId ≠ n.id) ∧
      ∀ c ∈ s.namespaces.rows, c.parent ≠ some n.id := by
  rw [emptyNamespaces, List.mem_filter, isEmptyNamespace_iff]

theorem Occupied.not_empty (h : s.Occupied n) : n ∉ s.emptyNamespaces key := by
  intro hn
  obtain ⟨-, -, noFile, noChild⟩ := mem_emptyNamespaces.1 hn
  cases h with
  | file mem own => exact noFile _ mem own
  | deeper mem linked => exact noChild _ mem linked

/-- Numbers are unique, so just the namespaces that were looked for go. -/
theorem Consistent.mem_dropNamespaces (hs : s.Consistent) {gone : List Namespace}
    (known : ∀ m ∈ gone, m ∈ s.namespaces.rows) :
    n ∈ (s.dropNamespaces (gone.map (·.id))).namespaces.rows ↔ n ∈ s.namespaces.rows ∧ n ∉ gone := by
  show n ∈ s.namespaces.rows.filter (fun m => !(gone.map (·.id)).contains m.id) ↔ _
  rw [List.mem_filter]
  refine and_congr_right fun hn => ?_
  simp only [Bool.not_eq_true', List.contains_eq_mem, decide_eq_false_iff_not]
  refine not_congr ⟨fun h => ?_, fun h => List.mem_map_of_mem h⟩
  obtain ⟨m, hm, same⟩ := List.mem_map.1 h
  rwa [← hs.namespaceIds.eq_of_id (known m hm) hn same]

theorem Consistent.mem_round (hs : s.Consistent) :
    n ∈ (s.round key).namespaces.rows ↔ n ∈ s.namespaces.rows ∧ n ∉ s.emptyNamespaces key :=
  hs.mem_dropNamespaces fun _ hm => (List.mem_filter.1 hm).1

/-- A round changes nothing about what is occupied. -/
theorem Consistent.occupied_round (hs : s.Consistent) : (s.round key).Occupied n ↔ s.Occupied n := by
  constructor
  · intro h
    induction h with
    | file mem own => exact .file mem own
    | deeper mem linked _ ih => exact .deeper (hs.mem_round.1 mem).1 linked ih
  · intro h
    induction h with
    | file mem own => exact .file mem own
    | deeper mem linked inner ih => exact .deeper (hs.mem_round.2 ⟨mem, inner.not_empty⟩) linked ih

theorem Sound.round (hs : s.Sound) (key : String) : (s.round key).Sound :=
  ⟨(hs.consistent.dropEmptyNamespaces key).1, hs.forest.dropEmptyNamespaces key⟩

/-- Namespaces that go one after the other can go at once. -/
theorem dropNamespaces_dropNamespaces (s : Store) (first second : List Id) :
    (s.dropNamespaces first).dropNamespaces second = s.dropNamespaces (first ++ second) := by
  simp [dropNamespaces, List.filter_filter, Function.comp_def, Bool.and_comm]

/-! ## All rounds -/

/-- The loop comes to an end, and this is where. -/
theorem exists_emptied (s : Store) (key : String) :
    ∃ rounds, Emptied key s rounds (s.deleteEmptyNamespaces key).2 ∧
      (s.deleteEmptyNamespaces key).1 = rounds.flatten.length := by
  induction s using deleteEmptyNamespaces.induct key with
  | case1 s hnone =>
    rw [deleteEmptyNamespaces, dif_pos hnone]
    exact ⟨[], .done hnone, rfl⟩
  | case2 s hsome gone count t _ ih =>
    rw [deleteEmptyNamespaces, dif_neg hsome]
    obtain ⟨rounds, rest, number⟩ := ih
    refine ⟨s.emptyNamespaces key :: rounds, .round hsome rest, ?_⟩
    show ((s.emptyNamespaces key).map (·.id)).length + _ = _
    rw [number, List.length_map, List.flatten_cons, List.length_append]

namespace Emptied

/-- The namespaces of the repository that are not occupied stand in the rounds, and no others. -/
theorem mem_gone (h : Emptied key s rounds t) (hs : s.Sound) (n : Namespace) :
    n ∈ rounds.flatten ↔ n ∈ s.namespaces.rows ∧ n.repository = key ∧ ¬ s.Occupied n := by
  induction h with
  | @done s none =>
    constructor
    · intro hn
      cases hn
    · rintro ⟨hn, own, vacant⟩
      exact absurd (hs.forest.occupied hs.consistent none hn own) vacant
  | @round s t rounds some rest ih =>
    rw [List.flatten_cons, List.mem_append, ih (hs.round key), hs.consistent.mem_round,
      hs.consistent.occupied_round]
    constructor
    · rintro (hn | ⟨⟨hn, -⟩, later⟩)
      · obtain ⟨there, own, -⟩ := mem_emptyNamespaces.1 hn
        exact ⟨there, own, fun occupied => occupied.not_empty hn⟩
      · exact ⟨hn, later⟩
    · rintro ⟨hn, own, vacant⟩
      by_cases now : n ∈ s.emptyNamespaces key
      · exact .inl now
      · exact .inr ⟨⟨hn, now⟩, own, vacant⟩

/-- No namespace goes twice: what is gone after one round is not there for the next. -/
theorem nodup_gone (h : Emptied key s rounds t) (hs : s.Sound) : rounds.flatten.Nodup := by
  induction h with
  | done => exact List.nodup_nil
  | @round s t rounds some rest ih =>
    have first : (s.emptyNamespaces key).Nodup :=
      (List.Nodup.of_map _ hs.consistent.namespaceIds.nodup).filter _
    rw [List.flatten_cons]
    refine List.nodup_append.2 ⟨first, ih (hs.round key), ?_⟩
    rintro n hn m hm rfl
    have left := ((rest.mem_gone (hs.round key) n).1 hm).1
    exact (hs.consistent.mem_round.1 left).2 hn

/-- All that has happened is that the namespaces of the rounds are gone. -/
theorem store (h : Emptied key s rounds t) : t = s.dropNamespaces (rounds.flatten.map (·.id)) := by
  induction h with
  | @done s none =>
    simp [dropNamespaces]
  | @round s t rounds some rest ih =>
    rw [ih, Store.round, dropNamespaces_dropNamespaces, List.flatten_cons, List.map_append]

theorem nonempty (h : Emptied key s rounds t) : ∀ round ∈ rounds, round ≠ [] := by
  induction h with
  | done none => simp
  | round some rest ih => exact List.forall_mem_cons.2 ⟨some, ih⟩

end Emptied

end CodeOutline.Graph.Store
