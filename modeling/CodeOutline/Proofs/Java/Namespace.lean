import CodeOutline.Proofs.Data.Outcome
import CodeOutline.Proofs.Java.PackageLine
import CodeOutline.Proofs.Java.Run
import CodeOutline.Proofs.Java.Walk

/-!
# The package line and the tree

The package line is found by the text alone, and the package declarations of the tree by the grammar.
Where a reader makes a package declaration, the tokens that it takes are the keyword, the name and the
semicolon (`run_packagesIn`), and these stand in the text (`Node.DeclaredIn.written`). So the two agree
on a declaration that has its line to itself and is the first such line (`namespaceOf_parsed`).
-/

namespace CodeOutline.Java

/-! ## Package declarations in the tree -/

/-- The node is the other one or somewhere in it. -/
inductive Node.Within : Node → Node → Prop
  | refl (node : Node) : Within node node
  | child {node child outer : Node} (h : Within node child) (mem : child ∈ outer.children) :
    Within node outer

/-- The tokens have in them, one behind the other, the keyword, the tokens of the declared name, and a
semicolon on the row where the declaration ends. -/
def Node.DeclaredIn (all : List Token) (node : Node) : Prop :=
  ∃ front keyword name stop back, all.map Token.bare = front ++ keyword :: (name ++ stop :: back) ∧
    keyword.text = "package" ∧ name ≠ [] ∧ node.declaredName = spanOf name ∧ stop.text = ";" ∧
    node.endRow = stop.endRow

/-- Every package declaration in the node is in the tokens. -/
def Node.PackagesIn (all : List Token) (node : Node) : Prop :=
  ∀ p : Node, p.Within node → p.isKind .package → p.DeclaredIn all

theorem packagesIn_comment (all : List Token) (k : Comment) : (Node.comment k).PackagesIn all := by
  intro p within package
  cases within with
  | refl => cases package
  | child _ mem => cases mem

theorem packagesIn_phrase {all : List Token} {kind : Kind} {text : String} {endRow : Nat}
    {children : List Node} (inside : ∀ m ∈ children, m.PackagesIn all)
    (self : kind = .package → (Node.phrase kind text endRow children).DeclaredIn all) :
    (Node.phrase kind text endRow children).PackagesIn all := by
  intro p within package
  cases within with
  | refl => exact self (of_decide_eq_true package)
  | child within mem => exact inside _ mem p within package

theorem packagesIn_leaf {kind : Kind} (other : kind ≠ .package) (all : List Token) (text : String)
    (endRow : Nat) : (Node.phrase kind text endRow []).PackagesIn all :=
  packagesIn_phrase (fun _ hm => absurd hm List.not_mem_nil) fun package => absurd package other

/-- The rule itself makes no nodes of a kind; rules that it refers to may do. -/
def Rule.avoids {ν : Type} (kind : Kind) : Rule ν → Bool
  | .token _ | .avoiding _ | .nothing | .ref _ => true
  | .seq a b | .choice a b => a.avoids kind && b.avoids kind
  | .many a => a.avoids kind
  | .node k a | .span k a => k ≠ kind && a.avoids kind

/-- Only one rule makes package declarations. -/
theorem rules_avoid_package {p : Phrase} (h : p ≠ .packageDeclaration) :
    (Grammar.rules p).avoids .package := by
  cases p with
  | packageDeclaration => exact absurd rfl h
  | operand arrow => cases arrow <;> rfl
  | _ => rfl

open Rule Grammar

variable {all : List Token} {fuel : Nat} {c c' : Cursor}

/-- Annotations make annotations. -/
theorem run_annotations (ok : run rules fuel annotations c = .ok c') :
    ∀ m ∈ c'.made, m ∈ c.made ∨ ¬ m.isKind .name := by
  induction fuel generalizing c with
  | zero => cases ok
  | succ fuel ih =>
    rcases run_many_ok ok with ⟨reach, rfl⟩ | ⟨d, first, more⟩
    · exact fun m hm => .inl hm
    · intro m hm
      rcases ih more m hm with hm | other
      · cases fuel with
        | zero => cases first
        | succ fuel =>
          cases fuel with
          | zero => cases first
          | succ fuel =>
            obtain ⟨e, -, rfl⟩ := run_node_ok first
            rcases List.mem_cons.1 hm with rfl | hm
            · exact .inr (by simp [Node.isKind])
            · rcases Cursor.mem_flush_made hm with ⟨k, rfl⟩ | hm
              · exact .inr Bool.false_ne_true
              · exact .inl hm
      · exact .inr other

/-- A name takes tokens. -/
theorem run_qualifiedName_lt (h : c.In all)
    (ok : run rules fuel (ref .qualifiedName) c = .ok c') : c.taken < c'.taken := by
  obtain _ | _ | fuel := fuel
  · cases ok
  · cases ok
  obtain ⟨d, first, more⟩ := run_seq_ok.1 ok
  obtain ⟨hd, -⟩ := take_in h (run_token_ok first)
  obtain ⟨-, -, -, -, taken, -⟩ := take_ok (run_token_ok first)
  have less := (run_in hd more).2
  omega

/-- The reading of a package declaration, in its parts. -/
theorem run_packageDeclaration_ok (ok : run rules fuel (rules .packageDeclaration) c = .ok c') :
    ∃ d e f g : Cursor, ∃ n < fuel, ∃ n' < fuel, run rules n annotations c.enter = .ok d ∧
      d.take (.words ["package"]) = .ok e ∧
      run rules n' (span .name (ref .qualifiedName)) e = .ok f ∧ f.take (.symbols [";"]) = .ok g ∧
      c' = c.leave g (.phrase .package "" g.endRow g.made.reverse) := by
  obtain _ | _ | _ | _ | fuel := fuel
  · cases ok
  · cases ok
  · obtain ⟨g, inside, rfl⟩ := run_node_ok ok
    obtain ⟨f, inside, stops⟩ := run_seq_ok.1 inside
    cases inside
  · obtain ⟨g, inside, rfl⟩ := run_node_ok ok
    obtain ⟨f, inside, stops⟩ := run_seq_ok.1 inside
    obtain ⟨e, inside, named⟩ := run_seq_ok.1 inside
    cases inside
  · obtain ⟨g, inside, rfl⟩ := run_node_ok ok
    obtain ⟨f, inside, stops⟩ := run_seq_ok.1 inside
    obtain ⟨e, inside, named⟩ := run_seq_ok.1 inside
    obtain ⟨d, annotated, keyword⟩ := run_seq_ok.1 inside
    exact ⟨d, e, f, g, fuel, by omega, fuel + 1, by omega, annotated, run_token_ok keyword,
      named, run_token_ok stops, rfl⟩

/-- The tokens between two cursors. -/
theorem bare_eq_take_append {e f : Cursor} (he : e.In all) (hf : f.In all)
    (less : e.taken ≤ f.taken) : e.tokens.map Token.bare =
      (e.tokens.map Token.bare).take (f.taken - e.taken) ++ f.tokens.map Token.bare := by
  have behind : f.tokens.map Token.bare = (e.tokens.map Token.bare).drop (f.taken - e.taken) := by
    rw [he, hf, List.drop_drop, Nat.add_sub_cancel' less]
  rw [behind, List.take_append_drop]

section Parts

variable {n n' : Nat} {d e f g : Cursor}

/-- What is made of the parts of a package declaration. -/
theorem made_of_parts (keyword : d.take (.words ["package"]) = .ok e)
    (named : run rules n' (span .name (ref .qualifiedName)) e = .ok f)
    (stops : f.take (.symbols [";"]) = .ok g) :
    ∃ (before after : List Comment) (row : Nat), g.made = after.map Node.comment ++
      .phrase .name (e.spanText (f.taken - e.taken)) row [] :: (before.map Node.comment ++ d.made) := by
  obtain _ | n' := n'
  · cases named
  obtain ⟨inside, -, rfl⟩ := run_span_ok named
  obtain ⟨-, -, -, made, -, -⟩ := take_ok keyword
  obtain ⟨-, -, -, made', -, -⟩ := take_ok stops
  obtain ⟨after, hafter⟩ := (e.leave inside _).flush_made
  obtain ⟨none, hnone⟩ := e.flush_made
  obtain ⟨before, hbefore⟩ := d.flush_made
  refine ⟨none ++ before, after, inside.endRow, ?_⟩
  rw [made', hafter, Cursor.leave, hnone, made, hbefore, List.map_append, List.append_assoc]

/-- Where the parts of a package declaration stand in the tokens. -/
theorem declaredIn_of_parts (h : c.In all) (annotated : run rules n annotations c.enter = .ok d)
    (keyword : d.take (.words ["package"]) = .ok e)
    (named : run rules n' (span .name (ref .qualifiedName)) e = .ok f)
    (stops : f.take (.symbols [";"]) = .ok g) :
    (Node.phrase .package "" g.endRow g.made.reverse).DeclaredIn all := by
  obtain ⟨hd, -⟩ := run_in h.enter annotated
  obtain ⟨he, -⟩ := take_in hd keyword
  obtain ⟨hf, -⟩ := run_in he named
  have less : e.taken < f.taken := by
    obtain _ | n' := n'
    · cases named
    obtain ⟨inside, name, rfl⟩ := run_span_ok named
    have less : e.enter.taken < inside.taken := run_qualifiedName_lt he.enter name
    rwa [e.enter_taken] at less
  have name := bare_eq_take_append he hf less.le
  obtain ⟨word, dTokens, isWord, -⟩ := take_ok keyword
  obtain ⟨stop, fTokens, isStop, -, -, endRow⟩ := take_ok stops
  refine ⟨(all.map Token.bare).take d.taken, word.bare,
    (e.tokens.map Token.bare).take (f.taken - e.taken), stop.bare, g.tokens.map Token.bare,
    ?_, ?_, ?_, ?_, ?_, endRow⟩
  · rw [← List.map_cons, ← fTokens, ← name, ← List.map_cons, ← dTokens, hd, List.take_append_drop]
  · have text := (Bool.and_eq_true_iff.1 isWord).2
    exact List.mem_singleton.1 (List.contains_iff_mem.1 text)
  · intro none
    rcases List.take_eq_nil_iff.1 none with zero | empty
    · omega
    · rw [empty, fTokens] at name
      cases List.append_eq_nil_iff.1 name.symm |>.2
  · obtain ⟨before, after, row, made⟩ := made_of_parts keyword named stops
    rw [made, List.reverse_append, List.reverse_cons, List.append_assoc, List.singleton_append,
      declaredName_of_split, Cursor.spanText_eq, ← List.map_take, spanOf_bare]
    intro m hm
    rw [List.mem_reverse, List.mem_append, List.mem_map] at hm
    rcases hm with ⟨k, -, rfl⟩ | hm
    · exact Bool.false_ne_true
    · rcases run_annotations annotated m hm with hm | other
      · cases hm
      · exact other
  · have text := (Bool.and_eq_true_iff.1 isStop).2
    exact List.mem_singleton.1 (List.contains_iff_mem.1 text)

end Parts

/-- Of the nodes that a reader makes, those of package declarations are in the tokens. -/
theorem run_packagesIn {r : Rule Phrase} (avoids : r.avoids .package) (h : c.In all)
    (made : ∀ m ∈ c.made, m.PackagesIn all) (ok : run rules fuel r c = .ok c') :
    ∀ m ∈ c'.made, m.PackagesIn all := by
  have unmade {c : Cursor} : ∀ m ∈ c.enter.made, m.PackagesIn all :=
    fun _ hm => absurd hm List.not_mem_nil
  have flushed {c : Cursor} (made : ∀ m ∈ c.made, m.PackagesIn all) :
      ∀ m ∈ c.flush.made, m.PackagesIn all := by
    intro m hm
    rcases Cursor.mem_flush_made hm with ⟨k, rfl⟩ | hm
    · exact packagesIn_comment all k
    · exact made m hm
  have left {c m : Cursor} {node : Node} (made : ∀ m ∈ c.made, m.PackagesIn all)
      (new : node.PackagesIn all) : ∀ n ∈ (c.leave m node).made, n.PackagesIn all := by
    intro n hn
    rcases List.mem_cons.1 hn with rfl | hn
    · exact new
    · exact flushed made n hn
  induction fuel using Nat.strongRecOn generalizing r c c' with
  | ind fuel ih =>
    cases fuel with
    | zero => cases ok
    | succ fuel =>
      cases r with
      | token t =>
        obtain ⟨-, -, -, made', -⟩ := take_ok ok
        rw [made']
        exact flushed made
      | avoiding words =>
        rw [run] at ok
        split at ok
        · cases ok
        · cases ok
          exact made
      | nothing =>
        cases ok
        exact made
      | seq a b =>
        obtain ⟨ha, hb⟩ := Bool.and_eq_true_iff.1 avoids
        obtain ⟨m, first, second⟩ := run_seq_ok.1 ok
        exact ih fuel (Nat.lt_succ_self _) hb (run_in h first).1
          (ih fuel (Nat.lt_succ_self _) ha h made first) second
      | choice a b =>
        obtain ⟨ha, hb⟩ := Bool.and_eq_true_iff.1 avoids
        rcases run_choice_ok ok with first | ⟨reach, second⟩
        · exact ih fuel (Nat.lt_succ_self _) ha h made first
        · exact ih fuel (Nat.lt_succ_self _) hb (c := { c with reach }) h made second
      | many a =>
        rcases run_many_ok ok with ⟨reach, rfl⟩ | ⟨m, first, more⟩
        · exact made
        · exact ih fuel (Nat.lt_succ_self _) (r := .many a) avoids (run_in h first).1
            (ih fuel (Nat.lt_succ_self _) (r := a) avoids h made first) more
      | node kind a =>
        obtain ⟨other, ha⟩ := Bool.and_eq_true_iff.1 avoids
        obtain ⟨m, inside, rfl⟩ := run_node_ok ok
        have below := ih fuel (Nat.lt_succ_self _) ha h.enter unmade inside
        exact left made (packagesIn_phrase (fun n hn => below n (List.mem_reverse.1 hn))
          fun package => absurd package (of_decide_eq_true other))
      | span kind a =>
        obtain ⟨other, -⟩ := Bool.and_eq_true_iff.1 avoids
        obtain ⟨m, -, rfl⟩ := run_span_ok ok
        exact left made (packagesIn_leaf (of_decide_eq_true other) all _ _)
      | ref name =>
        by_cases package : name = .packageDeclaration
        · subst package
          obtain ⟨d, e, f, g, n, less, n', -, annotated, keyword, named, stops, rfl⟩ :=
            run_packageDeclaration_ok ok
          have below := ih n (Nat.lt_succ_of_lt less) (r := annotations) rfl h.enter unmade annotated
          refine left made (packagesIn_phrase (fun m hm => ?_)
            fun _ => declaredIn_of_parts h annotated keyword named stops)
          obtain ⟨before, after, row, made'⟩ := made_of_parts keyword named stops
          rw [List.mem_reverse, made', List.mem_append, List.mem_cons, List.mem_append,
            List.mem_map, List.mem_map] at hm
          rcases hm with ⟨k, -, rfl⟩ | rfl | ⟨k, -, rfl⟩ | hm
          · exact packagesIn_comment all k
          · exact packagesIn_leaf (by decide) all _ _
          · exact packagesIn_comment all k
          · exact below m hm
        · exact ih fuel (Nat.lt_succ_self _) (rules_avoid_package package) h made ok

/-! ## Package declarations in the text -/

theorem toList_foldl_texts (rest : List Token) (text : String) :
    (rest.foldl (fun text t => text ++ t.gap ++ t.text) text).toList =
      text.toList ++ rest.flatMap Token.chars := by
  induction rest generalizing text with
  | nil => rw [List.foldl_nil, List.flatMap_nil, List.append_nil]
  | cons t rest ih =>
    rw [List.foldl_cons, ih, String.toList_append, String.toList_append, List.flatMap_cons,
      Token.chars, List.append_assoc, List.append_assoc, List.append_assoc]

theorem flatMap_chars_eq {name : List Token} (h : name ≠ []) :
    ∃ gap, name.flatMap Token.chars = gap ++ (spanOf name).toList := by
  cases name with
  | nil => exact absurd rfl h
  | cons first rest =>
    exact ⟨first.gap.toList, by
      rw [spanOf, toList_foldl_texts, List.flatMap_cons, Token.chars, List.append_assoc]⟩

/-- The declaration is written in the text: the keyword, the name and the semicolon in this order, the
semicolon on the row on which the node ends. -/
structure Node.WrittenIn (source : List Char) (node : Node) (front gap gap' back : List Char) :
    Prop where
  eq : source = front ++
    ("package".toList ++ (gap ++ (node.declaredName.toList ++ (gap' ++ ';' :: back))))
  row : node.endRow = (front ++ (gap ++ (node.declaredName.toList ++ gap'))).count '\n'

/-- What is in the tokens of a text is written in the text. -/
theorem Node.DeclaredIn.written {source : String} {node : Node} (h : node.DeclaredIn (tokens source)) :
    ∃ front gap gap' back, node.WrittenIn source.toList front gap gap' back := by
  obtain ⟨front, keyword, name, stop, back, eq, hkeyword, hname, declared, hstop, endRow⟩ := h
  obtain ⟨mark, cs, hsource, unbroken, covers⟩ := covers_tokens source
  have declaration := covers.bare
  rw [eq] at declaration
  obtain ⟨_, rfl, fromKeyword⟩ := declaration.split
  obtain ⟨_, rfl, keywordRow, fromName⟩ := fromKeyword.first
  obtain ⟨_, rfl, fromStop⟩ := fromName.split
  obtain ⟨rest, rfl, stopRow, -⟩ := fromStop.first
  obtain ⟨gap, hgap⟩ := flatMap_chars_eq hname
  have keywordChars : keyword.chars = keyword.gap.toList ++ "package".toList := by
    rw [Token.chars, hkeyword]
  have stopChars : stop.chars = stop.gap.toList ++ [';'] := by
    rw [Token.chars, hstop]
    rfl
  refine ⟨mark ++ (front.flatMap Token.chars ++ keyword.gap.toList), gap, stop.gap.toList, rest,
    ?_, ?_⟩
  · rw [hsource, keywordChars, hgap, stopChars, declared]
    simp only [List.append_assoc, List.singleton_append]
  · have feedless : "package".toList.count '\n' = 0 ∧ [';'].count '\n' = 0 := by decide
    rw [endRow, stopRow, keywordRow, keywordChars, hgap, stopChars, declared]
    simp only [List.count_append, unbroken, feedless]
    omega

theorem parse_ok {source : String} {root : Node} (h : parse source = .ok root) :
    ∃ c, run rules (readingDepth (tokens source)) (rules .program) { tokens := tokens source } = .ok c ∧
      root = .phrase .program "" c.endRow c.made.reverse := by
  dsimp only [parse] at h
  split at h
  · next c ok => exact ⟨c, ok, (Except.ok.inj h).symm⟩
  · cases h

/-- What the package line says of a source text that is parsed. The package declarations of the tree
are written in the text. One that stands alone on its line, with no line before it that reads as a
package declaration, gives the text its namespace; and where no line reads as one, the namespace is the
default. -/
theorem namespaceOf_parsed {source : String} {root : Node} (parsed : parse source = .ok root) :
    (∀ node : Node, node.Within root → node.isKind .package →
      (∃ front gap gap' back, node.WrittenIn source.toList front gap gap' back) ∧
      ∀ above indent gap gap' back,
        node.WrittenIn source.toList (above ++ indent) gap gap' back → AtLineStart above →
        StandsAlone indent gap node.declaredName.toList gap' back →
        NoPackageBefore above.length source.toList → namespaceOf source = node.declaredName) ∧
    ((∀ n, NoPackageBefore n source.toList) → namespaceOf source = Graph.defaultNamespace) := by
  obtain ⟨c, ok, rfl⟩ := parse_ok parsed
  have start : Cursor.In (tokens source) { tokens := tokens source } := rfl
  have made : ∀ m ∈ c.made, m.PackagesIn (tokens source) :=
    run_packagesIn (rules_avoid_package (p := .program) nofun) start nofun ok
  have inTokens : (Node.phrase .program "" c.endRow c.made.reverse).PackagesIn (tokens source) :=
    packagesIn_phrase (fun m hm => made m (List.mem_reverse.1 hm)) nofun
  refine ⟨fun node within package => ⟨(inTokens node within package).written, ?_⟩, fun none => ?_⟩
  · intro above indent gap gap' back written begins alone first
    have text := written.eq
    rw [List.append_assoc] at text
    have found : findPackage source.toList = some node.declaredName.toList :=
      findPackage_eq_some_iff.2 ⟨above, _, text, begins, ⟨indent, gap, gap', back, alone, rfl⟩, first⟩
    rw [namespaceOf, found]
    exact String.ofList_toList
  · have unfound : findPackage source.toList = Option.none :=
      findPackage_eq_none_iff.2 fun front tail eq begins =>
        none (front.length + 1) front tail eq begins (Nat.lt_succ_self _)
    rw [namespaceOf, unfound]

/-- The package declarations at the top of the tree, with the rows on which they end. -/
def packageNames (root : Node) : List (String × Nat) :=
  (root.children.filter (·.isKind .package)).map fun node => (node.declaredName, node.endRow)

theorem exists_of_mem_packageNames {root : Node} {name : String} {row : Nat}
    (h : (name, row) ∈ packageNames root) : ∃ node : Node, node.Within root ∧
      node.isKind .package ∧ node.declaredName = name ∧ node.endRow = row := by
  obtain ⟨node, hnode, eq⟩ := List.mem_map.1 h
  obtain ⟨mem, package⟩ := List.mem_filter.1 hnode
  obtain ⟨hname, hrow⟩ := Prod.mk.inj eq
  exact ⟨node, .child (.refl node) mem, package, hname, hrow⟩

/-- A declaration below a comment. -/
theorem namespaceOf_below_comment :
    let source := "// a tool\npackage a.b;\nclass A {}\n"
    (∃ root, parse source = .ok root ∧ packageNames root = [("a.b", 1)]) ∧
      namespaceOf source = "a.b" := by
  intro source
  have outlined : (parse source).toOption.map packageNames = some [("a.b", 1)] := by
    decide +kernel
  obtain ⟨root, accepted, names⟩ := Option.map_eq_some_iff.1 outlined
  have parsed := eq_ok_of_toOption accepted
  have mem : ("a.b", 1) ∈ packageNames root := names ▸ List.mem_singleton_self _
  obtain ⟨node, within, package, hname, hrow⟩ := exists_of_mem_packageNames mem
  have namespaced := ((namespaceOf_parsed parsed).1 node within package).2
    "// a tool\n".toList [] [' '] [] "\nclass A {}\n".toList
  rw [hname] at namespaced
  refine ⟨⟨root, parsed, names⟩, namespaced ⟨?_, ?_⟩ ?_ ⟨?_, ?_, ?_, ?_, ?_⟩ ?_⟩
  · rw [hname]
    decide +kernel
  · rw [hname, hrow]
    decide +kernel
  · intro c hc
    have last : "// a tool\n".toList.getLast? = some '\n' := by decide +kernel
    exact (Option.some.inj (last.symm.trans hc)).symm
  · exact nofun
  · exact ⟨by decide, List.all_eq_true.1 (by decide)⟩
  · exact ⟨by decide, List.all_eq_true.1 (by decide)⟩
  · exact nofun
  · exact List.all_eq_true.1 (by decide)
  · exact noPackageBefore_of_forall (by decide +kernel)

/-- A comment behind the declaration on its line keeps it from being the package line, though the text
is parsed and its package has a plain name. -/
theorem namespaceOf_not_parsed : ¬ ∀ source root name row, parse source = .ok root →
    packageNames root = [(name, row)] → name.toList.all isPackageChar → namespaceOf source = name := by
  intro agrees
  have outlined : (parse "package a; // c\nclass A {}").toOption.map packageNames =
      some [("a", 0)] := by
    decide +kernel
  obtain ⟨root, accepted, names⟩ := Option.map_eq_some_iff.1 outlined
  have named := agrees _ root "a" 0 (eq_ok_of_toOption accepted) names (by decide)
  have unnamed : namespaceOf "package a; // c\nclass A {}" = Graph.defaultNamespace := by
    decide +kernel
  exact absurd (unnamed.symm.trans named) (by decide)

end CodeOutline.Java
