import CodeOutline.Proofs.Java.SkeletonHeading

/-!
# Skeletons read back

The grammar gives the source text of skeletons the tree that it was written from (`parse_sourceOf`), and
so the outline says of the text what the skeletons say (`typesOf_sourceOf`). The induction is on the
skeletons: a member takes its own tokens in front of any others, and a repetition of members stops at the
closing brace.
-/

namespace CodeOutline.Java

open Rule Grammar

/-! ## Members -/

section Members

variable {s : Scan} {h : Heading} {keyword : Word} {rest : List Token}

theorem takes_declarator {name : String} (bare : s.comments = []) :
    Takes rules 30 (separated (ref .declarator) ",") [s.put .word name]
      ((Scan.tight s.row).put .symbol ";" :: rest)
      [.phrase .declarator "" s.row [nameNode s.row name]] := by
  have dimensions : Takes rules 20 (opt (ref .dimensions)) []
      ((Scan.tight s.row).put .symbol ";" :: rest) [] := takes_before (by decide)
  have value : Takes rules 20 (opt (symbol "=" ++ ref .initializer)) []
      ((Scan.tight s.row).put .symbol ";" :: rest) [] := takes_before (by decide)
  have more : Takes rules 20 (many (symbol "," ++ ref .declarator)) []
      ((Scan.tight s.row).put .symbol ";" :: rest) [] := takes_before (by decide)
  have named : Takes rules 2 declaredName [s.put .word name]
      ((Scan.tight s.row).put .symbol ";" :: rest) _ := takes_declaredName bare
  have inside := (named.seq_idle dimensions).seq_idle value
  have declarator : Takes rules 25 (rules .declarator) [s.put .word name]
      ((Scan.tight s.row).put .symbol ";" :: rest)
      [.phrase .declarator "" s.row [nameNode s.row name]] :=
    (Takes.node_bare .declarator (Scan.comments_put bare) inside).mono (by omega)
  exact (declarator.ref.seq_idle more).mono (by omega)

theorem takes_fieldDeclaration :
    Takes rules ((annotationTokens s h.annotations).length + 70) (ref .field)
      (h.tokens s .int ++ [(Scan.tight s.row).put .symbol ";"]) rest
      (s.comments.reverse.map Node.comment ++ [.phrase .field "" s.row (h.modifiers s.row ++
        [.phrase .declarator "" s.row [nameNode s.row h.name.text]])]) := by
  let type := (s.bare.behind h.annotations).put .word "int"
  let name := (Scan.spaced s.row).put .word h.name.text
  let semicolon := (Scan.tight s.row).put .symbol ";"
  have bare := Scan.comments_behind (s := s.bare) rfl h.annotations
  have mods : Takes rules _ (opt (ref .modifiers)) (annotationTokens s.bare h.annotations)
      ([type] ++ (name :: semicolon :: rest)) (h.modifiers s.row) :=
    takes_opt_modifiers rfl (by decide : (TokenKind.word, "int") ∈ keywords)
  have typed : Takes rules _ (ref (.plainType memberWords)) [type] ([name] ++ (semicolon :: rest)) [] :=
    takes_plainType bare (by decide) rfl
  have named : Takes rules _ (separated (ref .declarator) ",") [name] ([semicolon] ++ rest) _ :=
    takes_declarator rfl
  have finish : Takes rules 1 stop [semicolon] rest [] := takes_symbol rfl
  have inside := ((mods.seq typed).seq named).seq finish
  have heading : annotationTokens s.bare h.annotations ++ [type] ++ [name] = h.tokens s.bare .int :=
    List.append_assoc _ _ _
  rw [heading, List.append_nil, List.append_nil] at inside
  have field := takes_headed .field inside
  rw [length_annotationTokens_bare] at field
  exact field.ref.mono (by omega)

/-- The type and the name of a method. -/
theorem takes_typedName {u : Token} (h : Heading) (keyword : Word) (bare : s.comments = [])
    (lead : (TokenKind.word, keyword.text) ∈ typeWords) (listed : keyword.text ∈ primitiveWords) :
    Takes rules ((annotationTokens s h.annotations).length + 100)
      (modified (opt (ref .typeParameters ++ annotations) ++ ref (.plainType memberWords))
        (opt (ref .typeParameters ++ annotations) ++ ref (.plainType memberWords)) ++ declaredName)
      (h.tokens s keyword) (u :: rest) (h.modifiers s.row ++ [nameNode s.row h.name.text]) := by
  let type := (s.behind h.annotations).put .word keyword.text
  let name := (Scan.spaced s.row).put .word h.name.text
  have free : Takes rules 20 (opt (ref .typeParameters ++ annotations)) []
      ([type] ++ (name :: u :: rest)) [] :=
    takes_of_mem typeWords (by decide) lead
  have typed : Takes rules _ (ref (.plainType memberWords)) [type] (name :: u :: rest) [] :=
    takes_plainType (Scan.comments_behind bare _) listed rfl
  have start := takes_modified (h := h) bare (List.mem_cons_of_mem _ lead) (free.idle_seq typed)
  have named : Takes rules 2 declaredName [name] (u :: rest) _ := takes_declaredName rfl
  have heading : annotationTokens s h.annotations ++ [type] ++ [name] = h.tokens s keyword :=
    List.append_assoc _ _ _
  have both := start.seq named
  rw [heading, List.append_nil] at both
  exact both.mono (by omega)

/-- A field is no method. -/
theorem refuses_method :
    Refuses rules ((annotationTokens s h.annotations).length + 110) (ref .method)
      (h.tokens s .int ++ (Scan.tight s.row).put .symbol ";" :: rest) := by
  let semicolon := (Scan.tight s.row).put .symbol ";"
  have start : Takes rules _ _ (h.tokens s.bare .int) (semicolon :: rest) _ :=
    takes_typedName h .int rfl (by decide) (by decide)
  have refused : Refuses rules 10 (ref .parameters) (semicolon :: rest) := refuses_before (by decide)
  have inside := Refuses.seq_right start refused
  rw [← bareFirst_tokens, length_annotationTokens_bare] at inside
  exact inside.seq_left.seq_left.seq_left.node.ref.mono (by omega)

theorem takes_methodDeclaration :
    Takes rules ((annotationTokens s h.annotations).length + 120) (ref .method)
      (h.tokens s .void ++ [(Scan.tight s.row).put .symbol "(", (Scan.tight s.row).put .symbol ")",
        (Scan.spaced s.row).put .symbol "\x7b", (Scan.tight s.row).put .symbol "\x7d"]) rest
      (s.comments.reverse.map Node.comment ++ [.phrase .method "" s.row (h.modifiers s.row ++
        [nameNode s.row h.name.text, .phrase .other "" s.row [], .phrase .other "" s.row []])]) := by
  let left := (Scan.tight s.row).put .symbol "("
  let right := (Scan.tight s.row).put .symbol ")"
  let opening := (Scan.spaced s.row).put .symbol "\x7b"
  let closing := (Scan.tight s.row).put .symbol "\x7d"
  have start : Takes rules _ _ (h.tokens s.bare .void) (left :: right :: opening :: closing :: rest)
      _ := takes_typedName h .void rfl (by decide) (by decide)
  have parameters : Takes rules 50 (ref .parameters) [left, right] (opening :: closing :: rest)
      [.phrase .other "" s.row []] := by
    have none : Takes rules 40 ((ref .receiver ++ opt (symbol "," ++ anySeparated (ref .parameter) ","))
        ||| anySeparated (ref .parameter) ",") [] ([right] ++ (opening :: closing :: rest)) [] :=
      takes_before (by decide)
    have parens : Takes rules 1 (symbol "(") [left] ([right] ++ (opening :: closing :: rest)) [] :=
      takes_symbol rfl
    have inside := (parens.seq_idle none).seq (takes_symbol (s := .tight s.row) rfl)
    exact (Takes.node_bare .other rfl inside).ref.mono (by omega)
  have block : Takes rules 70 (ref .block ||| stop) [opening, closing] rest
      [.phrase .other "" s.row []] := by
    have none : Takes rules 60 (many (ref .statement)) [] ([closing] ++ rest) [] :=
      takes_before (by decide +kernel)
    have brace : Takes rules 1 (symbol "\x7b") [opening] ([closing] ++ rest) [] := takes_symbol rfl
    have inside := (brace.seq_idle none).seq (takes_symbol (s := .tight s.row) rfl)
    exact (Takes.node_bare .other rfl inside).ref.left.mono (by omega)
  have dimensions : Takes rules 20 (opt (ref .dimensions)) [] ([opening, closing] ++ rest) [] :=
    takes_before (by decide)
  have thrown : Takes rules 20 (opt (ref .thrown)) [] ([opening, closing] ++ rest) [] :=
    takes_before (by decide)
  have inside := (((start.seq parameters).seq_idle dimensions).seq_idle thrown).seq block
  rw [List.append_assoc, List.append_assoc, List.append_assoc] at inside
  have method := takes_headed .method inside
  rw [length_annotationTokens_bare] at method
  exact method.ref.mono (by omega)

/-- A class around what a repetition of its members takes. -/
theorem takes_classDeclaration {last n : Nat} {us : List Token} {nodes : List Node}
    (inside : Takes rules n (many (ref .classMember)) us
      ((Scan.fresh last).put .symbol "\x7d" :: rest) nodes) :
    Takes rules ((annotationTokens s h.annotations).length + n + 90) (ref .typeDeclaration)
      (h.tokens s .class ++ (Scan.spaced s.row).put .symbol "\x7b" ::
        (us ++ [(Scan.fresh last).put .symbol "\x7d"])) rest
      (s.comments.reverse.map Node.comment ++ [.phrase .classDecl "" last (h.modifiers s.row ++
        [nameNode s.row h.name.text, .phrase .body "" last nodes])]) := by
  let type := (s.bare.behind h.annotations).put .word "class"
  let name := (Scan.spaced s.row).put .word h.name.text
  let opening := (Scan.spaced s.row).put .symbol "\x7b"
  let closing := (Scan.fresh last).put .symbol "\x7d"
  have bare := Scan.comments_behind (s := s.bare) rfl h.annotations
  have mods : Takes rules _ (opt (ref .modifiers)) (annotationTokens s.bare h.annotations)
      ([type] ++ (name :: opening :: (us ++ [closing] ++ rest))) (h.modifiers s.row) :=
    takes_opt_modifiers rfl (by decide : (TokenKind.word, "class") ∈ keywords)
  have typed : Takes rules 1 (word "class") [type] ([name] ++ (opening :: (us ++ [closing] ++ rest)))
      [] := takes_words bare (by decide)
  have named : Takes rules 2 declaredName [name] (opening :: (us ++ [closing] ++ rest))
      [nameNode s.row h.name.text] := takes_declaredName rfl
  have header : Takes rules 20 (opt (ref .typeParameters) ++ opt (ref .superclass) ++
      opt (ref .implemented) ++ opt (ref .permitted)) [] (opening :: (us ++ [closing] ++ rest)) [] :=
    takes_before (by decide)
  have body : Takes rules (n + 10) (ref .classBody) (opening :: (us ++ [closing])) rest
      [.phrase .body "" last nodes] := by
    have brace : Takes rules 1 (symbol "\x7b") [opening] (us ++ ([closing] ++ rest)) [] :=
      takes_symbol rfl
    have finish : Takes rules 1 (symbol "\x7d") [closing] rest [] := takes_symbol rfl
    have inside := (brace.seq inside).seq finish
    rw [List.append_assoc, List.append_nil, List.singleton_append] at inside
    have whole := Takes.node_bare .body (Scan.comments_put rfl) inside
    rw [rowBehind_append] at whole
    exact whole.ref.mono (by omega)
  have heading : annotationTokens s.bare h.annotations ++ [type] ++ [name] = h.tokens s.bare .class :=
    List.append_assoc _ _ _
  have inside := (((mods.seq typed).seq named).seq_idle header).seq body
  rw [heading, List.append_nil, List.append_assoc] at inside
  have whole := takes_headed .classDecl inside
  rw [length_annotationTokens_bare, ← List.cons_append, rowBehind_append] at whole
  have first : Takes rules _ (ref .classDeclaration) _ _ _ := whole.ref
  exact first.left.left.left.left.ref.mono (by omega)

theorem comments_lead (clean : s.comments = []) :
    (h.lead s).comments.reverse.map Node.comment = (h.comments s.row).map Node.comment := by
  rw [Heading.lead, clean, List.append_nil]
  unfold Heading.comments
  split <;> rfl

theorem length_heading : (h.tokens s keyword).length = (annotationTokens s h.annotations).length + 2 :=
  List.length_append

theorem tokens_ne_nil (s : Scan) (d : Skeleton) : d.tokens s ≠ [] := by
  have filled (h : Heading) (s : Scan) (keyword : Word) : h.tokens s keyword ≠ [] := by
    obtain ⟨t, ts, first, -⟩ := first_tokens s h keyword
    rw [first]
    exact List.cons_ne_nil t ts
  cases d with
  | field h | method h | type h body => exact List.append_ne_nil_of_left_ne_nil (filled h _ _) _

/-- What a member is tried for first. -/
def smallMember : R :=
  stop ||| ref .block ||| node .other (word "static" ++ ref .block)

theorem refuses_smallMember (lead : (TokenKind.word, keyword.text) ∈ keywords) :
    Refuses rules 20 smallMember (h.tokens s keyword ++ rest) :=
  refuses_heading h keyword lead 20 (by decide)

mutual

/-- A member of a class, behind its comment. -/
theorem takes_member {s : Scan} {rest : List Token} (clean : s.comments = []) : (d : Skeleton) →
    Takes rules (50 * (d.tokens s).length + 200) (ref .classMember) (d.tokens s) rest
      ((d.head.comments s.row).map Node.comment ++ [d.node s.row])
  | .field h => by
    let behind := [(Scan.tight (s.row + h.rows)).put .symbol ";"]
    have before : Refuses rules _ _ (h.tokens (h.lead s) .int ++ (behind ++ rest)) :=
      ((refuses_smallMember (by decide)).choice (refuses_typeDeclaration (by decide))).choice
        refuses_method
    have field : Takes rules _ (ref .field) (h.tokens (h.lead s) .int ++ behind) rest _ :=
      takes_fieldDeclaration
    rw [comments_lead clean] at field
    rw [← List.append_assoc] at before
    have member : Takes rules _ (ref .classMember) _ _ _ := (Takes.right before field).left.left.ref
    rw [Skeleton.tokens, List.length_append, length_heading]
    exact member.mono (by omega)
  | .method h => by
    let r := s.row + h.rows
    let behind := [(Scan.tight r).put .symbol "(", (Scan.tight r).put .symbol ")",
      (Scan.spaced r).put .symbol "\x7b", (Scan.tight r).put .symbol "\x7d"]
    have before : Refuses rules _ _ (h.tokens (h.lead s) .void ++ (behind ++ rest)) :=
      (refuses_smallMember (by decide)).choice (refuses_typeDeclaration (by decide))
    have method : Takes rules _ (ref .method) (h.tokens (h.lead s) .void ++ behind) rest _ :=
      takes_methodDeclaration
    rw [comments_lead clean] at method
    rw [← List.append_assoc] at before
    have member : Takes rules _ (ref .classMember) _ _ _ :=
      (Takes.right before method).left.left.left.ref
    rw [Skeleton.tokens, List.length_append, length_heading]
    exact member.mono (by omega)
  | .type h body => by
    let last := s.row + h.rows + 1 + Skeleton.rowsOfList body
    have members := takes_members (s := .fresh (s.row + h.rows + 1)) last rest rfl body
    let behind := (Scan.spaced (s.row + h.rows)).put .symbol "\x7b" ::
      (Skeleton.tokensOfList (.fresh (s.row + h.rows + 1)) body ++
        [(Scan.fresh last).put .symbol "\x7d"])
    have before : Refuses rules 20 _ (h.tokens (h.lead s) .class ++ (behind ++ rest)) :=
      refuses_smallMember (by decide)
    have type := takes_classDeclaration (s := h.lead s) (h := h) members
    rw [comments_lead clean] at type
    rw [← List.append_assoc] at before
    have member : Takes rules _ (ref .classMember) _ _ _ :=
      (Takes.right before type).left.left.left.left.ref
    rw [Skeleton.tokens, List.length_append, length_heading, List.length_cons, List.length_append,
      List.length_singleton]
    exact member.mono (by omega)

theorem takes_members {s : Scan} (row : Nat) (rest : List Token) (clean : s.comments = []) :
    (ds : List Skeleton) →
    Takes rules (50 * (Skeleton.tokensOfList s ds).length + 210) (many (ref .classMember))
      (Skeleton.tokensOfList s ds) ((Scan.fresh row).put .symbol "\x7d" :: rest)
      (Skeleton.nodesOfList s.row ds)
  | [] => by
    have stop : Refuses rules 50 (ref .classMember) ((Scan.fresh row).put .symbol "\x7d" :: rest) :=
      refuses_before (by decide +kernel)
    exact (Takes.many_stop stop).mono (by omega)
  | d :: ds => by
    have some := List.length_pos_iff.2 (tokens_ne_nil s d)
    have both := (takes_member clean d).many_more (tokens_ne_nil s d)
      (takes_members (s := .fresh (s.row + d.rows)) row rest rfl ds)
    rw [List.append_assoc] at both
    rw [Skeleton.tokensOfList, List.length_append]
    exact both.mono (by omega)

end

end Members

/-! ## The source -/

section Source

variable {s : Scan} {rest : List Token}

/-- A package and a module may have annotations too. -/
theorem refuses_package_module (s : Scan) (h : Heading) (us : List Token) :
    Refuses rules ((annotationTokens s h.annotations).length + 60)
      (ref .packageDeclaration) (h.tokens s .class ++ us) ∧
    Refuses rules ((annotationTokens s h.annotations).length + 60)
      (ref .moduleDeclaration) (h.tokens s .class ++ us) := by
  let type := (s.bare.behind h.annotations).put .word "class"
  let name := (Scan.spaced s.row).put .word h.name.text
  have uses : Takes rules _ annotations (annotationTokens s.bare h.annotations) (type :: name :: us)
      _ :=
    takes_annotations 10 (fun use => use.mono (by omega)) (by decide) h.annotations rfl
      (by decide : (TokenKind.word, "class") ∈ keywords)
  have free : Takes rules 10 (opt (word "open")) [] (type :: name :: us) [] :=
    takes_before (by decide)
  have package : Refuses rules 10 (word "package") (type :: name :: us) := refuses_before (by decide)
  have module : Refuses rules 10 (word "module") (type :: name :: us) := refuses_before (by decide)
  have heading : annotationTokens s.bare h.annotations ++ type :: name :: us =
      h.tokens s.bare .class ++ us := by
    rw [Heading.tokens, List.append_assoc]
    rfl
  have packages := Refuses.seq_right uses package
  have modules := Refuses.seq_right (uses.seq_idle free) module
  rw [heading, ← bareFirst_tokens, length_annotationTokens_bare] at packages modules
  exact ⟨packages.seq_left.seq_left.node.ref.mono (by omega),
    modules.seq_left.seq_left.node.ref.mono (by omega)⟩

/-- What a statement is tried for first. -/
def smallStatement : R :=
  ref Phrase.block ||| stop ||| ref Phrase.ifStatement ||| ref Phrase.whileStatement
    ||| ref Phrase.doStatement ||| ref Phrase.forStatement ||| ref Phrase.tryStatement
    ||| statementOf (ref .switchExpression ++ opt (many1 (ref (.tail true)) ++ stop))
    ||| statementOf (word "synchronized" ++ ref .condition ++ ref .block)
    ||| ref Phrase.throwStatement ||| ref Phrase.jumpStatement

theorem takes_topLevel (clean : s.comments = []) (h : Heading) (body : List Skeleton) :
    Takes rules (50 * ((Skeleton.type h body).tokens s).length + 300) (ref .topLevel)
      ((Skeleton.type h body).tokens s) rest
      ((h.comments s.row).map Node.comment ++ [(Skeleton.type h body).node s.row]) := by
  let last := s.row + h.rows + 1 + Skeleton.rowsOfList body
  have members := takes_members (s := .fresh (s.row + h.rows + 1)) last rest rfl body
  let behind := (Scan.spaced (s.row + h.rows)).put .symbol "\x7b" ::
    (Skeleton.tokensOfList (.fresh (s.row + h.rows + 1)) body ++
      [(Scan.fresh last).put .symbol "\x7d"])
  have type := takes_classDeclaration (s := h.lead s) (h := h) members
  rw [comments_lead clean] at type
  obtain ⟨packages, modules⟩ := refuses_package_module (h.lead s) h (behind ++ rest)
  have small : Refuses rules 40 smallStatement (h.tokens (h.lead s) .class ++ (behind ++ rest)) :=
    refuses_heading h .class (by decide) 40 (by decide +kernel)
  have imports : Refuses rules 40 (ref .importDeclaration)
      (h.tokens (h.lead s) .class ++ (behind ++ rest)) :=
    refuses_heading h .class (by decide) 40 (by decide)
  have before := ((small.choice packages).choice imports).choice modules
  rw [← List.append_assoc] at before
  have statement : Takes rules _ (ref .statement) _ _ _ := (Takes.right before type).left.left.ref
  rw [Skeleton.tokens, List.length_append, length_heading, List.length_cons, List.length_append,
    List.length_singleton]
  have whole : Takes rules _ (ref .topLevel) _ _ _ := statement.left.ref
  exact whole.mono (by omega)

theorem takes_topLevels (clean : s.comments = []) (classes : List ClassSkeleton) {last : Token}
    (finish : last.kind = .finish) :
    Takes rules
      (50 * (Skeleton.tokensOfList s (classes.map ClassSkeleton.toSkeleton)).length + 310)
      (many (ref .topLevel)) (Skeleton.tokensOfList s (classes.map ClassSkeleton.toSkeleton)) [last]
      (Skeleton.nodesOfList s.row (classes.map ClassSkeleton.toSkeleton)) := by
  induction classes generalizing s with
  | nil =>
    have stop : Refuses rules 60 (ref .topLevel) [last] := .of_look_kind (by rw [finish]; decide +kernel)
    exact (Takes.many_stop stop).mono (by omega)
  | cons d ds ih =>
    have some := List.length_pos_iff.2 (tokens_ne_nil s d.toSkeleton)
    have more := ih (s := .fresh (s.row + d.toSkeleton.rows)) rfl
    have first (rest : List Token) : Takes rules (50 * (d.toSkeleton.tokens s).length + 300)
        (ref .topLevel) (d.toSkeleton.tokens s) rest _ := takes_topLevel clean d.head d.body
    have both := (first _).many_more (tokens_ne_nil s d.toSkeleton) more
    rw [List.append_assoc] at both
    rw [List.map_cons, Skeleton.tokensOfList, List.length_append]
    exact both.mono (by omega)

end Source

/-- The tree of a source text all of whose tokens the grammar takes. -/
theorem parse_of_takes {source : String} {n : Nat} {ts : List Token} {nodes : List Node}
    (cut : tokens source = ts) (takes : Takes rules n (rules .program) ts [] nodes)
    (enough : n ≤ readingDepth ts) :
    parse source = .ok (.phrase .program "" (rowBehind 0 ts) nodes) := by
  obtain ⟨reach, ok⟩ := takes (readingDepth ts) enough { tokens := ts } (List.append_nil ts).symm
  unfold parse
  rewrite [cut]
  dsimp only
  rewrite [ok]
  simp only [Cursor.past, List.append_nil, List.reverse_reverse]

/-- The grammar gives the source text of classes its tree. -/
theorem parse_sourceOf (classes : List ClassSkeleton)
    (plain : ∀ name ∈ Skeleton.annotationsOfList (classes.map ClassSkeleton.toSkeleton), name.Plain) :
    parse (sourceOf classes) = .ok (treeOf classes) := by
  let ds := classes.map ClassSkeleton.toSkeleton
  let last := (({} : Scan).below ds).put .finish ""
  have bare : last.comments = [] := by
    refine Scan.comments_put ?_
    unfold Scan.below
    split <;> rfl
  have row : rowBehind 0 (Skeleton.tokensOfList {} ds ++ [last]) = Skeleton.rowsOfList ds := by
    rw [rowBehind_append]
    exact (Scan.row_below {} ds).trans (Nat.zero_add _)
  have body : Takes rules _ (many (ref .topLevel)) (Skeleton.tokensOfList {} ds) ([last] ++ [])
      (Skeleton.nodesOfList 0 ds) := takes_topLevels rfl classes rfl
  have finish : Takes rules 1 (token .finish) [last] [] [] := Takes.token bare rfl
  have program := body.seq finish
  rw [List.append_nil] at program
  have enough : max (50 * (Skeleton.tokensOfList {} ds).length + 310) 1 + 1 ≤
      readingDepth (Skeleton.tokensOfList {} ds ++ [last]) := by
    rw [readingDepth, List.length_append, List.length_singleton]
    omega
  have parsed := parse_of_takes (tokens_charsOfList ds plain) program enough
  rw [row] at parsed
  exact parsed

/-- What the outline says of the source text of classes: each class, outer before inner, with its name,
its annotations, its comment, and its own fields and methods in their order. The tree of the text is
the one that the grammar prescribes; the lexer keeps to it as long as no annotation's name begins with
`interface`, which makes one symbol with the sign before it. -/
theorem typesOf_sourceOf (classes : List ClassSkeleton) :
    (parse (sourceOf classes) = .ok (treeOf classes) →
      typesOf (sourceOf classes) = .ok (factsOf classes)) ∧
    ((∀ name ∈ Skeleton.annotationsOfList (classes.map ClassSkeleton.toSkeleton), name.Plain) →
      parse (sourceOf classes) = .ok (treeOf classes) ∧
        typesOf (sourceOf classes) = .ok (factsOf classes)) := by
  have facts (parsed : parse (sourceOf classes) = .ok (treeOf classes)) :
      typesOf (sourceOf classes) = .ok (factsOf classes) := by
    rw [typesOf, parsed, ← declaredTypes_treeOf]
    rfl
  refine ⟨facts, fun plain => ?_⟩
  have parsed := parse_sourceOf classes plain
  exact ⟨parsed, facts parsed⟩

/-- A class with a class inside it. -/
theorem typesOf_order :
    typesOf ("/**\n * An order.\n * \x2a Not empty.\n */\n@Entity @Entity class Order \x7b\n" ++
      "@javax.Id int id;\n/**\n * One line.\n */\nclass Line \x7b\nvoid add() \x7b\x7d\n\x7d\n\x7d\n") =
    .ok [⟨"Order", ["Entity", "Entity"], some "An order.\n* Not empty.",
        [⟨"id", .field, ["javax.Id"], none⟩]⟩,
      ⟨"Line", [], some "One line.", [⟨"add", .method, [], none⟩]⟩] := by
  let word (first : Char) (more : List Char) (start : isWordStart first)
      (parts : more.all isWordPart) : Word :=
    ⟨String.ofList (first :: more), first, more, String.toList_ofList, start,
      List.all_eq_true.1 parts⟩
  let line (text : String) (filled : text.toList ≠ [])
      (trimmed : Text.trimChars text.toList = text.toList)
      (unbroken : text.toList.all (!Text.isLineBreak ·)) (unclosed : ¬ ['*', '/'] <:+: text.toList) :
      CommentLine :=
    ⟨text, filled, trimmed, fun c hc => by simpa using List.all_eq_true.1 unbroken c hc, unclosed⟩
  let entity : DottedName := ⟨word 'E' "ntity".toList (by decide) (by decide), []⟩
  let id : DottedName := ⟨word 'j' "avax".toList (by decide) (by decide),
    [word 'I' ['d'] (by decide) (by decide)]⟩
  let inner : Skeleton := .type
    ⟨[], [line "One line." (by decide) (by decide) (by decide) (by decide)],
      word 'L' "ine".toList (by decide) (by decide)⟩
    [.method ⟨[], [], word 'a' "dd".toList (by decide) (by decide)⟩]
  let order : ClassSkeleton :=
    ⟨⟨[entity, entity], [line "An order." (by decide) (by decide) (by decide) (by decide),
        line "* Not empty." (by decide) (by decide) (by decide) (by decide)],
        word 'O' "rder".toList (by decide) (by decide)⟩,
      [.field ⟨[id], [], word 'i' ['d'] (by decide) (by decide)⟩, inner]⟩
  have facts := ((typesOf_sourceOf [order]).2 (by decide)).2
  have text : sourceOf [order] =
      "/**\n * An order.\n * \x2a Not empty.\n */\n@Entity @Entity class Order \x7b\n" ++
      "@javax.Id int id;\n/**\n * One line.\n */\nclass Line \x7b\nvoid add() \x7b\x7d\n\x7d\n\x7d\n" := by
    decide +kernel
  have said : factsOf [order] = [⟨"Order", ["Entity", "Entity"], some "An order.\n* Not empty.",
        [⟨"id", .field, ["javax.Id"], none⟩]⟩,
      ⟨"Line", [], some "One line.", [⟨"add", .method, [], none⟩]⟩] := by
    decide +kernel
  exact (congrArg typesOf text).symm.trans (facts.trans (congrArg Except.ok said))

end CodeOutline.Java
