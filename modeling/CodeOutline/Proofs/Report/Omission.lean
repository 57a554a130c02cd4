import CodeOutline.Proofs.Report.Partial
import CodeOutline.Proofs.Service.Session

/-!
# Assembly from answers with gaps

A source may leave any parents out of any answer, as long as it answers right for those that it
includes (`Source.Omitting`). `Source.recorded` keeps the questions that a source is asked; `Pass` says
what holds of the tree and of these questions after some passes. A parent without children has been left
out in every pass since its own parent was answered for, so after four passes some id has been left out
twice, or the tree is complete.
-/

namespace CodeOutline.Report

open CodeOutline.Graph

variable {σ : Type}

/-- The answer leaves out some parents, and says of the others what the full answer says. -/
def Omits {α : Type} (answer full : List (Id × List α)) : Prop :=
  ∀ i, childrenIn answer i = none ∨ childrenIn answer i = childrenIn full i

/-- The source answers from a store that stays the same, and leaves out what it likes. -/
structure Source.Omitting (source : Source σ) (base : σ → Store) : Prop where
  files : ∀ ids d, Omits (source.files ids d).1 ((base d).filesFor ids) ∧
    base (source.files ids d).2 = base d
  types : ∀ ids d, Omits (source.types ids d).1 ((base d).typesFor ids) ∧
    base (source.types ids d).2 = base d
  members : ∀ ids d, Omits (source.members ids d).1 ((base d).membersFor ids) ∧
    base (source.members ids d).2 = base d

/-! ## Questions -/

/-- A question, and whom it was answered for. -/
structure Question where
  asked : List Id
  answered : List Id
  deriving Repr, DecidableEq

/-- The question that got that answer. -/
def Question.of {α : Type} (asked : List Id) (answer : List (Id × List α)) : Question where
  asked := asked
  answered := asked.filter fun i => (childrenIn answer i).isSome

/-- The parent was asked for, and the answer leaves it out. -/
def Question.leavesOut (q : Question) (i : Id) : Bool :=
  q.asked.contains i && !q.answered.contains i

/-- A source with the questions it was asked about namespaces, files and types. -/
structure Recording (σ : Type) where
  inner : σ
  namespaces : List Question := []
  files : List Question := []
  types : List Question := []

/-- The source, with its questions recorded. -/
def Source.recorded (source : Source σ) : Source (Recording σ) where
  files ids r :=
    let (answer, d) := source.files ids r.inner
    (answer, { r with inner := d, namespaces := r.namespaces ++ [.of ids answer] })
  types ids r :=
    let (answer, d) := source.types ids r.inner
    (answer, { r with inner := d, files := r.files ++ [.of ids answer] })
  members ids r :=
    let (answer, d) := source.members ids r.inner
    (answer, { r with inner := d, types := r.types ++ [.of ids answer] })

/-- Whether one of the questions was answered for the parent. -/
def knows (questions : List Question) (i : Id) : Bool :=
  questions.any (·.answered.contains i)

/-- How often the parent has been left out. -/
def misses (questions : List Question) (i : Id) : Nat :=
  questions.countP (·.leavesOut i)

def Recording.known (r : Recording σ) : Known :=
  ⟨knows r.namespaces, knows r.files, knows r.types⟩

/-- At most so many questions, none about a parent that an earlier one was answered for. -/
structure Orderly (limit : Nat) (questions : List Question) : Prop where
  few : questions.length ≤ limit
  fresh : questions.Pairwise fun q later => ∀ i ∈ q.answered, i ∉ later.asked

/-- The questions after one more, which is not put when there is nobody to ask for. -/
def logged {α : Type} (questions : List Question) (asked : List Id) (answer : List (Id × List α)) :
    List Question :=
  if asked.isEmpty then questions else questions ++ [.of asked answer]

section
variable {α : Type} {questions : List Question} {asked : List Id} {answer : List (Id × List α)} {i : Id}

theorem le_misses_logged : misses questions i ≤ misses (logged questions asked answer) i := by
  unfold logged misses
  split
  · exact le_rfl
  · simp

theorem knows_logged {children : Id → List α} (h : AnswersFor answer asked children) :
    knows (logged questions asked answer) = learn (knows questions) answer := by
  funext i
  have answered : (i ∈ asked ∧ (childrenIn answer i).isSome) ↔ (childrenIn answer i).isSome := by
    refine and_iff_right_of_imp fun some => ?_
    obtain ⟨l, some⟩ := Option.isSome_iff_exists.1 some
    exact (h i l some).1
  unfold logged learn
  split
  · next none =>
    rw [List.isEmpty_iff.1 none] at answered
    have nothing : childrenIn answer i = .none := by simpa using answered
    simp [nothing]
  · rw [Bool.eq_iff_iff]
    simp [knows, Question.of, answered]

/-- A parent that was asked for and still has no answer has been left out once more. -/
theorem lt_misses_logged (open_ : i ∈ asked)
    (unknown : knows (logged questions asked answer) i = false) :
    misses questions i < misses (logged questions asked answer) i := by
  have some : asked.isEmpty = false := by
    cases asked with
    | nil => cases open_
    | cons => rfl
  rw [logged, some, if_neg Bool.false_ne_true] at unknown ⊢
  simp [knows, Question.of, open_] at unknown
  simp [misses, Question.leavesOut, Question.of, open_, unknown]

theorem Orderly.logged {limit : Nat} (h : Orderly limit questions)
    (unknown : ∀ i ∈ asked, knows questions i = false) :
    Orderly (limit + 1) (logged questions asked answer) := by
  unfold Report.logged
  split
  · exact ⟨Nat.le_succ_of_le h.few, h.fresh⟩
  · refine ⟨by simpa using h.few, List.pairwise_append.2 ⟨h.fresh, List.pairwise_singleton .., ?_⟩⟩
    intro q hq later hlater i answered hi
    rw [List.mem_singleton.1 hlater] at hi
    have known : knows questions i := List.any_eq_true.2 ⟨q, hq, by simpa using answered⟩
    simp [unknown i hi] at known

end

/-! ## One level of a pass -/

/-- The parents that no question has been answered for are asked for, and the answer is right. -/
def AsksBelow {α : Type} (children : Id → List α) (parents : List Id)
    (questions after : List Question) :
    Prop :=
  ∃ answer, AnswersFor answer (parents.filter (!knows questions ·)) children ∧
    after = logged questions (parents.filter (!knows questions ·)) answer

section
variable {α : Type} {children : Id → List α} {parents : List Id} {questions after : List Question}
  {i : Id}

theorem AsksBelow.misses_le (h : AsksBelow children parents questions after) (i : Id) :
    misses questions i ≤ misses after i := by
  obtain ⟨answer, -, rfl⟩ := h
  exact le_misses_logged

theorem AsksBelow.unknown (h : AsksBelow children parents questions after)
    (unknown : knows after i = false) : knows questions i = false := by
  obtain ⟨answer, right, rfl⟩ := h
  rw [knows_logged right] at unknown
  exact (Bool.or_eq_false_iff.1 unknown).1

theorem AsksBelow.misses_lt (h : AsksBelow children parents questions after) (hi : i ∈ parents)
    (unknown : knows after i = false) : misses questions i < misses after i := by
  have before := h.unknown unknown
  obtain ⟨answer, -, rfl⟩ := h
  exact lt_misses_logged (List.mem_filter.2 ⟨hi, by rw [before]; rfl⟩) unknown

theorem AsksBelow.orderly {limit : Nat} (h : AsksBelow children parents questions after)
    (orderly : Orderly limit questions) : Orderly (limit + 1) after := by
  obtain ⟨answer, -, rfl⟩ := h
  exact orderly.logged fun i hi => by simpa using (List.mem_filter.1 hi).2

end

theorem childrenIn_map {α : Type} (children : Id → List α) (ids : List Id) (i : Id) :
    childrenIn (ids.map fun j => (j, children j)) i = if i ∈ ids then some (children i) else none := by
  unfold childrenIn
  rw [List.find?_map]
  induction ids with
  | nil => rfl
  | cons j rest ih =>
    by_cases e : j = i
    · simp [e]
    · simpa [e, Ne.symm e] using ih

/-- A question about different parents to a source that leaves out what it likes. -/
theorem ask_answersFor {α : Type} {parent : α → Id} {rows : List α}
    {query : List Id → σ → List (Id × List α) × σ} {ids : List Id} {d : σ} (nodup : ids.Nodup)
    (h : Omits (query ids d).1 (groupByParent parent rows ids)) :
    AnswersFor (ask query ids d).1 ids fun i => rows.filter (parent · = i) := by
  intro i l answered
  unfold ask at answered
  split at answered
  · cases answered
  · obtain none | same := h i
    · rw [none] at answered
      cases answered
    · rw [same, groupByParent_of_nodup parent rows nodup, childrenIn_map] at answered
      split at answered
      · next mem => exact ⟨mem, (Option.some.inj answered).symm⟩
      · cases answered

theorem base_ask {α : Type} {query : List Id → σ → List (Id × List α) × σ} {base : σ → Store}
    (ids : List Id) (d : σ) (h : base (query ids d).2 = base d) :
    base (ask query ids d).2 = base d := by
  unfold ask
  split
  · rfl
  · exact h

section
variable {α : Type} {asked : List Id} {answer : List (Id × List α)} {children : Id → List α}
  (r : Recording σ) (d : σ)

theorem known_namespaces_logged (h : AnswersFor answer asked children) :
    ({ r with inner := d, namespaces := logged r.namespaces asked answer } : Recording σ).known =
      { r.known with namespaces := learn r.known.namespaces answer } :=
  congrArg (Known.mk · (knows r.files) (knows r.types)) (knows_logged h)

theorem known_files_logged (h : AnswersFor answer asked children) :
    ({ r with inner := d, files := logged r.files asked answer } : Recording σ).known =
      { r.known with files := learn r.known.files answer } :=
  congrArg (Known.mk (knows r.namespaces) · (knows r.types)) (knows_logged h)

theorem known_types_logged (h : AnswersFor answer asked children) :
    ({ r with inner := d, types := logged r.types asked answer } : Recording σ).known =
      { r.known with types := learn r.known.types answer } :=
  congrArg (Known.mk (knows r.namespaces) (knows r.files)) (knows_logged h)

end

section
variable (source : Source σ) (ids : List Id) (r : Recording σ)

theorem ask_files_recorded :
    ask source.recorded.files ids r =
      ((ask source.files ids r.inner).1,
        { r with
          inner := (ask source.files ids r.inner).2
          namespaces := logged r.namespaces ids (ask source.files ids r.inner).1 }) := by
  unfold ask logged
  split <;> rfl

theorem ask_types_recorded :
    ask source.recorded.types ids r =
      ((ask source.types ids r.inner).1,
        { r with
          inner := (ask source.types ids r.inner).2
          files := logged r.files ids (ask source.types ids r.inner).1 }) := by
  unfold ask logged
  split <;> rfl

theorem ask_members_recorded :
    ask source.recorded.members ids r =
      ((ask source.members ids r.inner).1,
        { r with
          inner := (ask source.members ids r.inner).2
          types := logged r.types ids (ask source.members ids r.inner).1 }) := by
  unfold ask logged
  split <;> rfl

end

/-! ## One pass -/

variable {source : Source σ} {base : σ → Store} {s : Store} {heading : Heading}
  {namespaces : List Namespace} {passes : Nat} {t : Tree} {r : Recording σ}

/-- The first level: files of namespaces. -/
theorem fillFiles_recorded (heading : Heading) (omits : source.Omitting base)
    (nodup : (namespaces.map (·.id)).Nodup) (hbase : base r.inner = s) (layered : r.known.Layered s) :
    let t := partialTree s r.known heading namespaces
    ∃ answer r', ask source.recorded.files (t.openNamespaces.map (·.node.id)) r = (answer, r') ∧
      t.fillFiles answer = partialTree s r'.known heading namespaces ∧
      base r'.inner = s ∧ r'.known.Layered s ∧
      AsksBelow (filesIn s) (namespaces.map (·.id)) r.namespaces r'.namespaces ∧
      r'.files = r.files ∧ r'.types = r.types := by
  intro t
  rw [openNamespaces_partialTree, ask_files_recorded]
  subst hbase
  have right := ask_answersFor (nodup.filter (!r.known.namespaces ·)) (omits.files _ r.inner).1
  refine ⟨_, _, rfl, ?_, base_ask _ _ (omits.files _ r.inner).2, ?_, ⟨_, right, rfl⟩, rfl, rfl⟩
  · rw [fillFiles_partialTree layered right, known_namespaces_logged r _ right]
  · rw [known_namespaces_logged r _ right]
    exact layered.learnNamespaces _

/-- The second level: types of files. -/
theorem fillTypes_recorded (heading : Heading) (omits : source.Omitting base) (hs : s.Consistent)
    (nodup : (namespaces.map (·.id)).Nodup) (hbase : base r.inner = s) (layered : r.known.Layered s) :
    let t := partialTree s r.known heading namespaces
    ∃ answer r', ask source.recorded.types (t.openFiles.map (·.fact.id)) r = (answer, r') ∧
      t.fillTypes answer = partialTree s r'.known heading namespaces ∧
      base r'.inner = s ∧ r'.known.Layered s ∧
      AsksBelow s.typesIn (r.known.reachedFiles s namespaces) r.files r'.files ∧
      r'.namespaces = r.namespaces ∧ r'.types = r.types := by
  intro t
  rw [openFiles_partialTree, ask_types_recorded]
  subst hbase
  have distinct : (r.known.reachedFiles (base r.inner) namespaces).Nodup := nodup_below nodup hs.fileIds
  have right := ask_answersFor (distinct.filter (!r.known.files ·)) (omits.types _ r.inner).1
  refine ⟨_, _, rfl, ?_, base_ask _ _ (omits.types _ r.inner).2, ?_, ⟨_, right, rfl⟩, rfl, rfl⟩
  · rw [fillTypes_partialTree layered right, known_files_logged r _ right]
  · rw [known_files_logged r _ right]
    exact layered.learnFiles hs right

/-- The third level: members of types. -/
theorem fillMembers_recorded (heading : Heading) (omits : source.Omitting base) (hs : s.Consistent)
    (nodup : (namespaces.map (·.id)).Nodup) (hbase : base r.inner = s) (layered : r.known.Layered s) :
    let t := partialTree s r.known heading namespaces
    ∃ answer r', ask source.recorded.members (t.openTypes.map (·.fact.id)) r = (answer, r') ∧
      t.fillMembers answer = partialTree s r'.known heading namespaces ∧
      base r'.inner = s ∧ r'.known.Layered s ∧
      AsksBelow s.membersIn (r.known.reachedTypes s namespaces) r.types r'.types ∧
      r'.namespaces = r.namespaces ∧ r'.files = r.files := by
  intro t
  rw [openTypes_partialTree, ask_members_recorded]
  subst hbase
  have distinct : (r.known.reachedTypes (base r.inner) namespaces).Nodup :=
    nodup_below (nodup_below nodup hs.fileIds) hs.typeIds
  have right := ask_answersFor (distinct.filter (!r.known.types ·)) (omits.members _ r.inner).1
  refine ⟨_, _, rfl, ?_, base_ask _ _ (omits.members _ r.inner).2, ?_, ⟨_, right, rfl⟩, rfl, rfl⟩
  · rw [fillMembers_partialTree right, known_types_logged r _ right]
  · rw [known_types_logged r _ right]
    exact layered.learnTypes hs right

/-- What a pass does: it asks at each level for what has no answer yet, and the tree shows what is known
after it. -/
theorem hydrate_partialTree (heading : Heading) (omits : source.Omitting base) (hs : s.Consistent)
    (nodup : (namespaces.map (·.id)).Nodup) (hbase : base r.inner = s) (layered : r.known.Layered s) :
    ∃ r' : Recording σ,
      (partialTree s r.known heading namespaces).hydrate source.recorded r =
        (partialTree s r'.known heading namespaces, r') ∧
      base r'.inner = s ∧ r'.known.Layered s ∧
      AsksBelow (filesIn s) (namespaces.map (·.id)) r.namespaces r'.namespaces ∧
      AsksBelow s.typesIn (r'.known.reachedFiles s namespaces) r.files r'.files ∧
      AsksBelow s.membersIn (r'.known.reachedTypes s namespaces) r.types r'.types := by
  obtain ⟨a₁, r₁, ask₁, fill₁, base₁, layered₁, below₁, files₁, types₁⟩ :=
    fillFiles_recorded heading omits nodup hbase layered
  obtain ⟨a₂, r₂, ask₂, fill₂, base₂, layered₂, below₂, namespaces₂, types₂⟩ :=
    fillTypes_recorded heading omits hs nodup base₁ layered₁
  obtain ⟨a₃, r₃, ask₃, fill₃, base₃, layered₃, below₃, namespaces₃, files₃⟩ :=
    fillMembers_recorded heading omits hs nodup base₂ layered₂
  have reachedFiles : r₃.known.reachedFiles s namespaces = r₁.known.reachedFiles s namespaces := by
    simp only [Known.reachedFiles, Recording.known, namespaces₃, namespaces₂]
  have reachedTypes : r₃.known.reachedTypes s namespaces = r₂.known.reachedTypes s namespaces := by
    simp only [Known.reachedTypes, Known.reachedFiles, Recording.known, namespaces₃, files₃]
  refine ⟨r₃, ?_, base₃, layered₃, ?_, ?_, ?_⟩
  · unfold Tree.hydrate
    simp only [ask₁, fill₁, ask₂, fill₂, ask₃, fill₃]
  · rwa [namespaces₃, namespaces₂]
  · rwa [reachedFiles, files₃, ← files₁]
  · rwa [reachedTypes, ← types₁, ← types₂]

/-- Whoever has no answer after some passes has been left out in each of them since its parent was
answered for. -/
structure Behind (s : Store) (namespaces : List Namespace) (passes : Nat) (r : Recording σ) : Prop where
  openNamespaces : ∀ i ∈ namespaces.map (·.id), knows r.namespaces i = false →
    passes ≤ misses r.namespaces i
  openFiles : ∀ i ∈ namespaces.map (·.id), knows r.namespaces i → ∀ f ∈ filesIn s i,
    knows r.files f.id = false → passes ≤ misses r.namespaces i + misses r.files f.id
  openTypes : ∀ i ∈ namespaces.map (·.id), knows r.namespaces i → ∀ f ∈ filesIn s i,
    knows r.files f.id → ∀ u ∈ s.typesIn f.id, knows r.types u.id = false →
      passes ≤ misses r.namespaces i + misses r.files f.id + misses r.types u.id

/-- What holds after some passes. -/
structure Pass (base : σ → Store) (s : Store) (heading : Heading) (namespaces : List Namespace)
    (passes : Nat) (t : Tree) (r : Recording σ) : Prop where
  base : base r.inner = s
  tree : t = partialTree s r.known heading namespaces
  layered : r.known.Layered s
  orderly : Orderly passes r.namespaces ∧ Orderly passes r.files ∧ Orderly passes r.types
  behind : Behind s namespaces passes r

theorem Behind.step {r' : Recording σ} (h : Behind s namespaces passes r)
    (first : AsksBelow (filesIn s) (namespaces.map (·.id)) r.namespaces r'.namespaces)
    (second : AsksBelow s.typesIn (r'.known.reachedFiles s namespaces) r.files r'.files)
    (third : AsksBelow s.membersIn (r'.known.reachedTypes s namespaces) r.types r'.types) :
    Behind s namespaces (passes + 1) r' where
  openNamespaces i hi unknown := by
    have := h.openNamespaces i hi (first.unknown unknown)
    have := first.misses_lt hi unknown
    omega
  openFiles i hi known f hf unknown := by
    have reached : f.id ∈ r'.known.reachedFiles s namespaces := mem_below.2 ⟨i, hi, known, f, hf, rfl⟩
    have before := second.unknown unknown
    have := second.misses_lt reached unknown
    have := first.misses_le i
    -- Either the file was in the tree already, or its namespace had no answer before this pass.
    cases namespace_ : knows r.namespaces i with
    | true =>
      have := h.openFiles i hi namespace_ f hf before
      omega
    | false =>
      have := h.openNamespaces i hi namespace_
      omega
  openTypes i hi known f hf knownFile u hu unknown := by
    have reached : f.id ∈ r'.known.reachedFiles s namespaces := mem_below.2 ⟨i, hi, known, f, hf, rfl⟩
    have reached : u.id ∈ r'.known.reachedTypes s namespaces :=
      mem_below.2 ⟨f.id, reached, knownFile, u, hu, rfl⟩
    have before := third.unknown unknown
    have := third.misses_lt reached unknown
    have := first.misses_le i
    have := second.misses_le f.id
    cases namespace_ : knows r.namespaces i with
    | true =>
      cases file : knows r.files f.id with
      | true =>
        have := h.openTypes i hi namespace_ f hf file u hu before
        omega
      | false =>
        have := h.openFiles i hi namespace_ f hf file
        omega
    | false =>
      have := h.openNamespaces i hi namespace_
      omega

theorem Pass.step (omits : source.Omitting base) (hs : s.Consistent)
    (nodup : (namespaces.map (·.id)).Nodup) (h : Pass base s heading namespaces passes t r) :
    Pass base s heading namespaces (passes + 1) (t.hydrate source.recorded r).1
      (t.hydrate source.recorded r).2 := by
  obtain ⟨hbase, rfl, layered, ⟨namespaceQuestions, fileQuestions, typeQuestions⟩, behind⟩ := h
  obtain ⟨r', same, base', layered', first, second, third⟩ :=
    hydrate_partialTree heading omits hs nodup hbase layered
  rw [same]
  exact ⟨base', rfl, layered',
    ⟨first.orderly namespaceQuestions, second.orderly fileQuestions, third.orderly typeQuestions⟩,
    behind.step first second third⟩

/-! ## The whole assembly -/

theorem hydrate_recorded (t : Tree) (r : Recording σ) :
    ((t.hydrate source.recorded r).1, (t.hydrate source.recorded r).2.inner) =
      t.hydrate source r.inner := by
  unfold Tree.hydrate
  simp only [ask_files_recorded, ask_types_recorded, ask_members_recorded]

theorem repair_recorded (repository : String) (passes : Nat) (t : Tree) (r : Recording σ) :
    ((t.repair source.recorded repository passes r).1,
        (t.repair source.recorded repository passes r).2.1.inner,
        (t.repair source.recorded repository passes r).2.2) =
      t.repair source repository passes r.inner := by
  induction passes generalizing t r with
  | zero => rfl
  | succ passes ih =>
    unfold Tree.repair
    split
    · rfl
    · rw [← hydrate_recorded t r]
      simp only [← ih]

/-- That the questions are recorded changes nothing else. -/
theorem assemble_recorded (r : Recording σ) :
    ((assemble source.recorded heading namespaces r).1,
        (assemble source.recorded heading namespaces r).2.1.inner,
        (assemble source.recorded heading namespaces r).2.2) =
      assemble source heading namespaces r.inner := by
  unfold assemble
  split
  · rfl
  · rw [← hydrate_recorded]
    simp only [← repair_recorded]
    split <;> rfl

/-- Repair passes go on until the tree is complete or none is left. -/
theorem Pass.repair (omits : source.Omitting base) (hs : s.Consistent)
    (nodup : (namespaces.map (·.id)).Nodup) (repository : String) (left : Nat)
    (h : Pass base s heading namespaces passes t r) :
    ∃ t' r' events, t.repair source.recorded repository left r = (t', r', events) ∧
      ∃ done ≤ passes + left, Pass base s heading namespaces done t' r' ∧
        (t'.isComplete ∨ done = passes + left) := by
  induction left generalizing passes t r with
  | zero => exact ⟨t, r, [], rfl, passes, le_rfl, h, .inr rfl⟩
  | succ left ih =>
    cases complete : t.isComplete with
    | true =>
      rw [Tree.repair, complete, if_pos rfl]
      exact ⟨t, r, [], rfl, passes, Nat.le_add_right .., h, .inl complete⟩
    | false =>
      obtain ⟨t', r', events, rest, done, few, pass, ending⟩ := ih (h.step omits hs nodup)
      rw [Tree.repair, complete, if_neg Bool.false_ne_true]
      exact ⟨t', r', _, by simp only [rest]; rfl, done, by omega, pass, ending.imp_right (by omega)⟩

theorem Pass.start (heading : Heading) (namespaces : List Namespace) {d : σ} (hbase : base d = s) :
    Pass base s heading namespaces 0 ⟨heading, namespaces.map ({ node := · })⟩ { inner := d } where
  base := hbase
  tree := rfl
  layered := ⟨fun _ _ known => (nomatch known), fun _ _ known => (nomatch known)⟩
  orderly := ⟨⟨le_rfl, .nil⟩, ⟨le_rfl, .nil⟩, ⟨le_rfl, .nil⟩⟩
  behind := ⟨fun _ _ _ => Nat.zero_le _, fun _ _ _ _ _ _ => Nat.zero_le _,
    fun _ _ _ _ _ _ _ _ _ => Nat.zero_le _⟩

/-- After as many passes as there are levels, and one more, a tree is complete if nobody has been left
out twice. -/
theorem Pass.isComplete (h : Pass base s heading namespaces 4 t r)
    (once : ∀ questions ∈ [r.namespaces, r.files, r.types], ∀ i, misses questions i ≤ 1) :
    t.isComplete := by
  obtain ⟨-, rfl, -, -, behind⟩ := h
  simp only [List.forall_mem_cons] at once
  obtain ⟨namespacesOnce, filesOnce, typesOnce, -⟩ := once
  refine isComplete_partialTree.2 ⟨fun i hi => ?_, fun i hi => ?_, fun i hi => ?_⟩
  · by_contra unknown
    have := behind.openNamespaces i hi (Bool.eq_false_iff.2 unknown)
    have := namespacesOnce i
    omega
  · obtain ⟨n, hn, known, f, hf, rfl⟩ := mem_below.1 hi
    by_contra unknown
    have := behind.openFiles n hn known f hf (Bool.eq_false_iff.2 unknown)
    have := namespacesOnce n
    have := filesOnce f.id
    omega
  · obtain ⟨j, hj, knownFile, u, hu, rfl⟩ := mem_below.1 hi
    obtain ⟨n, hn, known, f, hf, rfl⟩ := mem_below.1 hj
    by_contra unknown
    have := behind.openTypes n hn known f hf knownFile u hu (Bool.eq_false_iff.2 unknown)
    have := namespacesOnce n
    have := filesOnce f.id
    have := typesOnce u.id
    omega

/-- The assembly ends with the tree after some passes. -/
theorem assemble_pass (omits : source.Omitting base) (hs : s.Consistent)
    (nodup : (namespaces.map (·.id)).Nodup) (stored : namespaces ≠ []) {d : σ} (hbase : base d = s) :
    let run := assemble source.recorded heading namespaces { inner := d }
    ∃ done ≤ 4, ∃ t, Pass base s heading namespaces done t run.2.1 ∧ (t.isComplete ∨ done = 4) ∧
      run.1 = if t.isComplete then .ok t else
        .error (.incomplete heading.name t.openNamespaces.length t.openFiles.length t.openTypes.length) := by
  intro run
  obtain ⟨t, r, events, repaired, done, few, pass, ending⟩ :=
    (Pass.step omits hs nodup (Pass.start heading namespaces hbase)).repair omits hs nodup heading.name
      repairLimit
  have some : namespaces.isEmpty = false := by simpa using stored
  have result : run = (if t.isComplete then .ok t else .error (.incomplete heading.name
      t.openNamespaces.length t.openFiles.length t.openTypes.length), r, events) := by
    simp only [run, assemble, some, Bool.false_eq_true, if_false, repaired]
    split <;> rfl
  rw [result]
  exact ⟨done, few, t, pass, ending, rfl⟩

/-- A repository with a namespace, in a consistent store whose answers leave out what they like. The
assembly asks at most four times at each level, and for nobody that has been answered for. What it
returns is the tree of the store without gaps; otherwise the tree is incomplete. It does return one if
nobody is left out twice at the same level. -/
theorem assemble_of_omissions {source : Source σ} {base : σ → Store} (omits : source.Omitting base)
    (d : σ) (hs : (base d).Consistent) (heading : Heading) {key : String}
    (stored : (base d).namespacesOf key ≠ []) :
    let namespaces := (base d).namespacesOf key
    let result := (assemble source heading namespaces d).1
    let run := assemble source.recorded heading namespaces { inner := d }
    let questions := [run.2.1.namespaces, run.2.1.files, run.2.1.types]
    run.1 = result ∧
      (∀ level ∈ questions, level.length ≤ 4 ∧
        level.Pairwise fun earlier later => ∀ i ∈ earlier.answered, i ∉ later.asked) ∧
      (∀ tree, result = .ok tree → (assemble .store heading namespaces (base d)).1 = .ok tree) ∧
      (∀ fault, result = .error fault → ∃ n f u, fault = .incomplete heading.name n f u) ∧
      ((∀ level ∈ questions, ∀ i, (level.filter (·.leavesOut i)).length ≤ 1) →
        ∃ tree, result = .ok tree) := by
  intro namespaces result run questions
  have nodup : (namespaces.map (·.id)).Nodup :=
    hs.namespaceIds.nodup.sublist (List.filter_sublist.map _)
  have same : run.1 = result :=
    congrArg Prod.fst (@assemble_recorded _ source heading namespaces { inner := d })
  obtain ⟨done, few, t, pass, ending, answer⟩ := assemble_pass omits hs nodup stored rfl
  have full : (assemble .store heading namespaces (base d)).1 =
      .ok (treeIn (base d) heading namespaces) := by
    rw [assemble_store hs nodup, if_neg (by simpa using stored)]
  have orderly : ∀ level ∈ questions, Orderly done level := by
    simpa [questions] using pass.orderly
  rw [same] at answer
  refine ⟨same, fun level mem => ?_, fun tree ok => ?_, fun fault bad => ?_, fun once => ?_⟩
  · exact ⟨(orderly level mem).few.trans few, (orderly level mem).fresh⟩
  · cases complete : t.isComplete with
    | true =>
      rw [complete, if_pos rfl, ok] at answer
      rw [full, ← partialTree_of_isComplete (pass.tree ▸ complete), ← pass.tree, answer]
    | false =>
      rw [complete, if_neg Bool.false_ne_true, ok] at answer
      cases answer
  · cases complete : t.isComplete with
    | true =>
      rw [complete, if_pos rfl, bad] at answer
      cases answer
    | false =>
      rw [complete, if_neg Bool.false_ne_true, bad] at answer
      exact ⟨_, _, _, Except.error.inj answer⟩
  · have complete : t.isComplete := by
      obtain complete | rfl := ending
      · exact complete
      · refine pass.isComplete fun level mem i => ?_
        rw [misses, List.countP_eq_length_filter]
        exact once level mem i
    exact ⟨t, by rw [answer, if_pos complete]⟩

/-! ## A source with gaps -/

theorem omits_drop {α : Type} {full : List (Id × List α)} (h : (full.map (·.1)).Nodup) :
    Omits (full.drop 1) full := by
  intro i
  cases full with
  | nil => exact .inr rfl
  | cons first rest =>
    obtain ⟨new, -⟩ := List.nodup_cons.1 h
    by_cases e : first.1 = i
    · refine .inl ?_
      have absent : rest.find? (·.1 = i) = none :=
        List.find?_eq_none.2 fun p hp => by
          simpa using fun e' => new (List.mem_map.2 ⟨p, hp, e'.trans e.symm⟩)
      simp [childrenIn, absent]
    · exact .inr (by simp [childrenIn, e])

theorem omits_cutShort {α : Type} (left : Nat) (parent : α → Id) (rows : List α) (ids : List Id) :
    Omits (cutShort left (groupByParent parent rows ids)) (groupByParent parent rows ids) := by
  unfold cutShort
  split
  · exact fun i => .inr rfl
  · refine omits_drop ?_
    simpa [groupByParent, Function.comp_def] using nodup_eraseDups ids

theorem forgetful_omitting : Source.forgetful.Omitting Forgetful.store where
  files _ _ := ⟨omits_cutShort _ _ _ _, rfl⟩
  types _ _ := ⟨omits_cutShort _ _ _ _, rfl⟩
  members _ _ := ⟨omits_cutShort _ _ _ _, rfl⟩

/-- A gap at each level, one after the other. The fourth pass fills the last one. -/
theorem assemble_of_gap_at_each_level :
    let operations : List Service.Operation :=
      [.ingest .java "acme/tool" "A.java" "class A { int x; }"]
    let d : Forgetful :=
      { store := (Service.session {} operations).store, files := 1, types := 1, members := 1 }
    let heading : Heading := ⟨"acme", "tool", none⟩
    let namespaces := d.store.namespacesOf "acme/tool"
    let run := assemble Source.forgetful.recorded heading namespaces { inner := d }
    ([run.2.1.namespaces, run.2.1.files, run.2.1.types], run.2.2.length) =
        (List.replicate 3 [⟨[1], []⟩, ⟨[1], [1]⟩], 3) ∧
      ∃ tree, run.1 = .ok tree ∧ (assemble .store heading namespaces d.store).1 = .ok tree := by
  intro operations d heading namespaces run
  have asked : ([run.2.1.namespaces, run.2.1.files, run.2.1.types], run.2.2.length) =
      (List.replicate 3 [⟨[1], []⟩, ⟨[1], [1]⟩], 3) := by decide +kernel
  have stored : d.store.namespacesOf "acme/tool" ≠ [] := by decide +kernel
  have hs : d.store.Consistent := by
    dsimp only [d]
    exact (Service.session_keeps {} operations Store.consistent_empty).1
  obtain ⟨same, -, right, -, returns⟩ := assemble_of_omissions forgetful_omitting d hs heading stored
  obtain ⟨tree, ok⟩ := returns (by
    rw [show [run.2.1.namespaces, run.2.1.files, run.2.1.types] = _ from congrArg Prod.fst asked]
    intro level mem i
    rw [List.eq_of_mem_replicate mem]
    by_cases e : i = 1 <;> simp [Question.leavesOut, e])
  exact ⟨asked, tree, same.trans ok, right tree ok⟩

end CodeOutline.Report
