import CodeOutline.Proofs.Graph.Climb
import CodeOutline.Proofs.Graph.Lineage

/-!
# Completing a chain

A call for a namespace in any store, whatever part of the chain is there and however its namespaces
hang together. The call fails if and only if what is asked for is wrong in itself, and then nothing has
happened. Otherwise the missing end of the chain has been made, and the same call again finds the
namespace at once.
-/

namespace CodeOutline.Graph

open CodeOutline.Text

variable {key : String} {name : Option String} {s : Store}

/-- A namespace that is there is returned as it is. -/
theorem getOrCreate_of_there {node : Namespace} (hkey : isBlankText key = false)
    (hname : isWellFormedName (normalizeName name))
    (there : s.namespace? key (normalizeName name) = some node) :
    getOrCreate .plain key name s = (.ok node, s, []) := by
  have found : (Climb.lookUp (normalizeName name) []).step .plain key s = (.done node, s, []) := by
    simp only [Climb.step, Access.plain, there, Climb.reached]
  have going : 0 < (Climb.lookUp (normalizeName name) []).remaining := by
    simp only [Climb.remaining]
    omega
  unfold getOrCreate
  rw [hkey, hname, Climb.run_step going, found]
  simp only [Climb.run_done, Bool.false_eq_true, if_false, if_true, List.append_nil]

/-- In any store: a call is refused, and nothing has changed, if the repository is blank or the name is
not made of segments. If not, the call returns the namespace of that name, which is there now; of its
chain, `found` is as far as the longest prefix that was there, and the rest `made` has been made, each
below the one before it; no other row has changed; and the same call again changes nothing and returns
the same namespace. -/
theorem getOrCreate_completes (key : String) (name : Option String) (s : Store) :
    let target := normalizeName name
    let answer := (getOrCreate .plain key name s).1
    let t := (getOrCreate .plain key name s).2.1
    ((isBlankText key = true ∨ ¬ ∃ segments, IsSegmented target segments) ∧
      ∃ fault, answer = .error fault ∧ fault.isInvalidArgument ∧ t = s) ∨
    (isBlankText key = false ∧ ∃ segments, IsSegmented target segments ∧
      ∃ node found made, answer = .ok node ∧ t.namespace? key target = some node ∧
        found ++ made = segments.inits.tail.map (joinWith ".") ∧
        (∀ x ∈ found.getLast?, x ∈ s.namesIn key) ∧ (∀ x ∈ made, x ∉ s.namesIn key) ∧
        t = s.withChain key (s.numberAt key found) made ∧
        getOrCreate .plain key name t = (.ok node, t, [])) := by
  intro target answer t
  by_cases usable : isBlankText key = false ∧ isWellFormedName target
  · obtain ⟨hkey, hname⟩ := usable
    obtain ⟨segments, segmented⟩ := isWellFormedName_iff.1 hname
    obtain ⟨node, u, events, found, made, called, created⟩ := getOrCreate_plain hkey hname s
    have hanswer : answer = .ok node := congrArg Prod.fst called
    have ht : t = u := congrArg (fun r => r.2.1) called
    right
    refine ⟨hkey, segments, segmented, node, found, made, hanswer, ?_⟩
    rw [ht]
    refine ⟨created.there, ?_, created.last, created.missing, created.grows,
      getOrCreate_of_there hkey hname created.there⟩
    rw [← created.chain, segmented.dottedPrefixes]
  · have wrong : isBlankText key = true ∨ isWellFormedName target = false := by
      cases hkey : isBlankText key with
      | true => exact .inl rfl
      | false => exact .inr (by simpa using fun hname => usable ⟨hkey, hname⟩)
    obtain ⟨fault, called, invalid⟩ := getOrCreate_unusable .plain s wrong
    left
    refine ⟨wrong.imp_right fun hname there => ?_, fault, ?_, invalid, ?_⟩
    · rw [isWellFormedName_iff.2 there] at hname
      cases hname
    · exact congrArg Prod.fst called
    · exact congrArg (fun r => r.2.1) called

example :
    let s : Store := { namespaces := ⟨[⟨4, "acme/tool", "com.acme", none⟩], 6⟩ }
    (getOrCreate .plain "acme/tool" (some " com.acme.ui.text ") s).2.1.namespaces =
      ⟨[⟨4, "acme/tool", "com.acme", none⟩, ⟨7, "acme/tool", "com.acme.ui", some 4⟩,
        ⟨8, "acme/tool", "com.acme.ui.text", some 7⟩], 8⟩ := by
  decide +kernel

end CodeOutline.Graph
