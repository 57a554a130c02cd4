import CodeOutline.Proofs.Text.Pieces
import CodeOutline.Report.Markdown

/-!
# Reports read back

A report says line by line what is in its tree. `Line` is what a line says and `Line.text` how it is
written. Lines are read from the last to the first, so that what stands below a heading is known when
the heading is reached (`Reading.enter`). Where names are plain, a line is read as it was written
(`Line.read_text`) and so are all of them (`readOutline_written`); so two reports with one heading are
the same text exactly where their trees have the same outline (`Tree.render_eq_render_iff`).
-/

namespace CodeOutline.Report

open CodeOutline.Graph CodeOutline.Text

/-! ## Outlines -/

/-- What a report shows of a method or a field. -/
structure MemberOutline where
  name : String
  annotations : List String
  deriving DecidableEq

/-- What a report shows of a type. -/
structure TypeOutline where
  name : String
  annotations : List String
  methods : List MemberOutline
  fields : List MemberOutline
  deriving DecidableEq

/-- What a report shows of a file. -/
structure FileOutline where
  name : String
  types : List TypeOutline
  deriving DecidableEq

/-- What a report shows of a namespace. -/
structure NamespaceOutline where
  name : String
  files : List FileOutline
  deriving DecidableEq

/-- The names and annotations of a member. -/
def memberOutline (m : MemberRow) : MemberOutline := ⟨m.name, m.annotations⟩

def TypeBranch.outline (t : TypeBranch) : TypeOutline :=
  ⟨t.fact.name, t.fact.annotations, (t.methods.getD []).map memberOutline,
    (t.fields.getD []).map memberOutline⟩

def FileBranch.outline (f : FileBranch) : FileOutline :=
  ⟨f.fact.fileName, (f.types.getD []).map TypeBranch.outline⟩

def NamespaceBranch.outline (n : NamespaceBranch) : NamespaceOutline :=
  ⟨n.node.name, (n.files.getD []).map FileBranch.outline⟩

/-- The names and annotations of a tree, in its order. Children that have not been fetched are none. -/
def Tree.outline (t : Tree) : List NamespaceOutline := t.namespaces.map NamespaceBranch.outline

/-! ## Lines -/

/-- What a line of a report says. -/
inductive Line where
  | package (name : String)
  | blank
  | file (name : String)
  | type (name : String)
  | annotations (names : List String)
  | member (kind : MemberKind) (name : String) (annotations : List String)
  deriving DecidableEq

def memberLabel : MemberKind → String
  | .method => "Method"
  | .field => "Field"

/-- What a line of a member begins with. -/
def memberMark (kind : MemberKind) : String := "    - **" ++ memberLabel kind ++ "**: "

/-- The line as it is written, without its end. -/
def Line.text : Line → String
  | package name => "#### Package: " ++ name
  | blank => ""
  | file name => "- **File**: " ++ name
  | type name => "  - **Class**: " ++ name
  | annotations names => "    - **Annotations**: [" ++ (commas names ++ "]")
  | member kind name names => memberMark kind ++ (name ++ (" (" ++ (commas names ++ ")")))

section

variable (name : String) (names : List String)

theorem Line.text_package : (package name).text = "#### Package: " ++ name := rfl

theorem Line.text_blank : blank.text = "" := rfl

theorem Line.text_file : (file name).text = "- **File**: " ++ name := rfl

theorem Line.text_type : (type name).text = "  - **Class**: " ++ name := rfl

theorem Line.text_annotations :
    (annotations names).text = "    - **Annotations**: [" ++ (commas names ++ "]") := rfl

theorem Line.text_member (kind : MemberKind) :
    (member kind name names).text =
      memberMark kind ++ (name ++ (" (" ++ (commas names ++ ")"))) := rfl

end

def MemberOutline.line (kind : MemberKind) (m : MemberOutline) : Line :=
  .member kind m.name m.annotations

def TypeOutline.lines (t : TypeOutline) : List Line :=
  .type t.name :: .annotations t.annotations ::
    (t.methods.map (·.line .method) ++ t.fields.map (·.line .field))

def FileOutline.lines (f : FileOutline) : List Line :=
  .file f.name :: f.types.flatMap TypeOutline.lines

def NamespaceOutline.lines (n : NamespaceOutline) : List Line :=
  .package n.name :: .blank :: (n.files.flatMap FileOutline.lines ++ [.blank])

/-! ## What is written -/

/-- Lines with their ends. -/
def written (lines : List Line) : String := String.join (lines.map fun l => l.text ++ "\n")

theorem written_nil : written [] = "" := rfl

theorem written_cons (l : Line) (ls : List Line) :
    written (l :: ls) = l.text ++ "\n" ++ written ls := by
  rw [written, List.map_cons, String.join_cons, written]

theorem written_append (ls ls' : List Line) : written (ls ++ ls') = written ls ++ written ls' := by
  rw [written, List.map_append, String.join_append, written, written]

/-- What is written for each item of a level is written for the level. -/
theorem join_map_written {α β : Type} {write : α → String} {outline : α → β} {lines : β → List Line}
    (h : ∀ a, write a = written (lines (outline a))) (items : List α) :
    String.join (items.map write) = written ((items.map outline).flatMap lines) := by
  induction items with
  | nil => rfl
  | cons a rest ih =>
    rw [List.map_cons, String.join_cons, List.map_cons, List.flatMap_cons, written_append, h, ih]

theorem memberLine_eq (kind : MemberKind) (m : MemberRow) :
    memberLine (memberLabel kind) m = written [(memberOutline m).line kind] := by
  have close : ")\n" = ")" ++ "\n" := rfl
  have line : memberLine (memberLabel kind) m =
      memberMark kind ++ m.name ++ " (" ++ commas m.annotations ++ ")\n" := rfl
  rw [line, close, written_cons, written_nil, String.append_empty]
  simp only [MemberOutline.line, memberOutline, Line.text_member, String.append_assoc]

theorem join_memberLines (kind : MemberKind) (members : List MemberRow) :
    String.join (members.map (memberLine (memberLabel kind))) =
      written ((members.map memberOutline).map (·.line kind)) := by
  have each : String.join (members.map (memberLine (memberLabel kind))) =
      written ((members.map memberOutline).flatMap fun m => [m.line kind]) :=
    join_map_written (memberLine_eq kind) members
  rwa [← List.map_eq_flatMap] at each

theorem TypeBranch.render_eq (t : TypeBranch) : t.render .insertion = written t.outline.lines := by
  have opened : "\n    - **Annotations**: [" = "\n" ++ "    - **Annotations**: [" := rfl
  have close : "]\n" = "]" ++ "\n" := rfl
  have text : t.render .insertion =
      "  - **Class**: " ++ t.fact.name ++ "\n    - **Annotations**: [" ++
        commas t.fact.annotations ++ "]\n" ++
        String.join ((t.methods.getD []).map (memberLine (memberLabel .method))) ++
        String.join ((t.fields.getD []).map (memberLine (memberLabel .field))) := rfl
  rw [text, opened, close, join_memberLines, join_memberLines]
  simp only [TypeBranch.outline, TypeOutline.lines, written_cons, written_append, Line.text_type,
    Line.text_annotations, String.append_assoc]

theorem FileBranch.render_eq (f : FileBranch) : f.render .insertion = written f.outline.lines := by
  have text : f.render .insertion = "- **File**: " ++ f.fact.fileName ++ "\n" ++
      String.join ((f.types.getD []).map (TypeBranch.render .insertion)) := rfl
  rw [text, join_map_written TypeBranch.render_eq, FileBranch.outline, FileOutline.lines,
    written_cons, Line.text_file]

theorem NamespaceBranch.render_eq (n : NamespaceBranch) :
    n.render .insertion = written n.outline.lines := by
  have close : "\n\n" = "\n" ++ "\n" := rfl
  have text : n.render .insertion = "#### Package: " ++ n.node.name ++ "\n\n" ++
      String.join ((n.files.getD []).map (FileBranch.render .insertion)) ++ "\n" := rfl
  rw [text, close, join_map_written FileBranch.render_eq]
  simp only [NamespaceBranch.outline, NamespaceOutline.lines, written_cons, written_append,
    written_nil, Line.text_package, Line.text_blank, String.empty_append, String.append_empty,
    String.append_assoc]

/-- A report is its heading and the lines of its outline. -/
theorem Tree.render_eq (t : Tree) :
    t.render .insertion = t.heading.render ++ written (t.outline.flatMap NamespaceOutline.lines) := by
  rw [Tree.outline, ← join_map_written NamespaceBranch.render_eq]
  rfl

/-! ## Plain outlines -/

/-- A name that stays on its line. -/
def Unbroken (name : String) : Prop := '\n' ∉ name.toList

/-- A name that can be told from its neighbours in a list. -/
def Separable (name : String) : Prop :=
  name ≠ "" ∧ Unbroken name ∧ ¬[',', ' '] <:+: name.toList

/-- A member whose name ends at the first space of its line. -/
def MemberOutline.Plain (m : MemberOutline) : Prop :=
  Unbroken m.name ∧ ' ' ∉ m.name.toList ∧ ∀ a ∈ m.annotations, Separable a

def TypeOutline.Plain (t : TypeOutline) : Prop :=
  Unbroken t.name ∧ (∀ a ∈ t.annotations, Separable a) ∧ (∀ m ∈ t.methods, m.Plain) ∧
    ∀ m ∈ t.fields, m.Plain

def FileOutline.Plain (f : FileOutline) : Prop := Unbroken f.name ∧ ∀ t ∈ f.types, t.Plain

def NamespaceOutline.Plain (n : NamespaceOutline) : Prop := Unbroken n.name ∧ ∀ f ∈ n.files, f.Plain

/-- A tree whose names and annotations are plain. -/
def Tree.Plain (t : Tree) : Prop := ∀ n ∈ t.outline, n.Plain

instance (name : String) : Decidable (Unbroken name) := inferInstanceAs (Decidable (_ ∉ _))

instance (name : String) : Decidable (Separable name) := inferInstanceAs (Decidable (_ ∧ _))

instance (m : MemberOutline) : Decidable m.Plain := inferInstanceAs (Decidable (_ ∧ _))

instance (t : TypeOutline) : Decidable t.Plain := inferInstanceAs (Decidable (_ ∧ _))

instance (f : FileOutline) : Decidable f.Plain := inferInstanceAs (Decidable (_ ∧ _))

instance (n : NamespaceOutline) : Decidable n.Plain := inferInstanceAs (Decidable (_ ∧ _))

instance (t : Tree) : Decidable t.Plain := inferInstanceAs (Decidable (∀ n ∈ _, _))

/-! ## Reading a line -/

/-- The parts of a text between the separators `, `, with what has been read of the first one. -/
def splitCommas (part : List Char) : List Char → List (List Char)
  | [] => [part.reverse]
  | ',' :: ' ' :: rest => part.reverse :: splitCommas [] rest
  | c :: rest => splitCommas (c :: part) rest

/-- The names of a list that has been written with commas. -/
def readCommas (cs : List Char) : List String :=
  if cs = [] then [] else (splitCommas [] cs).map String.ofList

/-- A member, from what stands after the mark of its line. -/
def readMember (kind : MemberKind) (cs : List Char) : Line :=
  .member kind (String.ofList (cs.takeWhile (· ≠ ' ')))
    (readCommas ((cs.dropWhile (· ≠ ' ')).drop 2).dropLast)

/-- What a line can begin with, and how it goes on. -/
def forms : List (String × (List Char → Line)) :=
  [("#### Package: ", fun cs => .package (String.ofList cs)),
    ("- **File**: ", fun cs => .file (String.ofList cs)),
    ("  - **Class**: ", fun cs => .type (String.ofList cs)),
    ("    - **Annotations**: [", fun cs => .annotations (readCommas cs.dropLast)),
    ("    - **Method**: ", readMember .method),
    ("    - **Field**: ", readMember .field)]

/-- What a line says, by what it begins with. -/
def readLine (s : String) : Line :=
  (forms.findSome? fun form => (form.1.toList.isPrefixOf? s.toList).map form.2).getD .blank

theorem splitCommas_cons {c : Char} {rest : List Char} (h : ¬[',', ' '] <+: c :: rest)
    (part : List Char) : splitCommas part (c :: rest) = splitCommas (c :: part) rest := by
  refine splitCommas.eq_3 part c rest ?_
  rintro cs rfl rfl
  exact h (List.prefix_append [',', ' '] cs)

/-- A name without a separator goes on the part that is being read, unless one begins at its end. -/
theorem splitCommas_append {name : List Char} (h : ¬[',', ' '] <:+: name) {rest : List Char}
    (next : rest.head? ≠ some ' ') (part : List Char) :
    splitCommas part (name ++ rest) = splitCommas (name.reverse ++ part) rest := by
  induction name generalizing part with
  | nil => rfl
  | cons c name ih =>
    -- A separator begins neither in the name nor with its last character, which no space follows.
    have here : ¬[',', ' '] <+: c :: (name ++ rest) := by
      rw [List.cons_prefix_cons]
      rintro ⟨rfl, mark⟩
      cases name with
      | nil => exact next (List.head?_eq_some_iff.2 (mark.imp fun _ => Eq.symm))
      | cons d name =>
        obtain ⟨rfl, -⟩ := List.cons_prefix_cons.1 mark
        exact h (List.prefix_append [',', ' '] name).isInfix
    have later : ¬[',', ' '] <:+: name := fun mem => h (mem.trans (List.suffix_cons c name).isInfix)
    rw [List.cons_append, splitCommas_cons here, ih later]
    simp

/-- Names that have been written with commas are read back. -/
theorem splitCommas_intercalate {names : List (List Char)} (nonempty : names ≠ [])
    (h : ∀ name ∈ names, ¬[',', ' '] <:+: name) :
    splitCommas [] ([',', ' '].intercalate names) = names := by
  induction names with
  | nil => exact absurd rfl nonempty
  | cons name rest ih =>
    obtain ⟨plain, hrest⟩ := List.forall_mem_cons.1 h
    by_cases more : rest = []
    · have read : splitCommas [] (name ++ []) = splitCommas (name.reverse ++ []) [] :=
        splitCommas_append plain (by simp) []
      simpa [more, splitCommas] using read
    · rw [List.intercalate_cons_of_ne_nil more, List.append_assoc, splitCommas_append plain (by simp)]
      simp [splitCommas, ih more hrest]

theorem readCommas_commas {names : List String} (h : ∀ a ∈ names, Separable a) :
    readCommas (commas names).toList = names := by
  have mark : ", ".toList = [',', ' '] := rfl
  rw [commas, String.toList_intercalate, mark]
  cases names with
  | nil => rfl
  | cons a rest =>
    -- A list with a name in it is not read as the empty one, as no name is empty.
    have filled : [',', ' '].intercalate ((a :: rest).map String.toList) ≠ [] := by
      have first : a.toList ≠ [] := mt String.toList_eq_nil_iff.1 (h a List.mem_cons_self).1
      cases rest with
      | nil => simpa using first
      | cons => simp [List.intercalate_cons_cons, first]
    rw [readCommas, if_neg filled, splitCommas_intercalate (by simp)]
    · simp [Function.comp_def]
    · rintro _ mem
      obtain ⟨name, hname, rfl⟩ := List.mem_map.1 mem
      exact (h name hname).2.2

/-- What a line says has to be plain for the line to be read. -/
def Line.Plain : Line → Prop
  | package name => Unbroken name
  | blank => True
  | file name => Unbroken name
  | type name => Unbroken name
  | annotations names => ∀ a ∈ names, Separable a
  | member _ name names => Unbroken name ∧ ' ' ∉ name.toList ∧ ∀ a ∈ names, Separable a

theorem readMember_written (kind : MemberKind) {name : String} {names : List String}
    (word : ' ' ∉ name.toList) (h : ∀ a ∈ names, Separable a) :
    readMember kind (name ++ (" (" ++ (commas names ++ ")"))).toList = .member kind name names := by
  have cut : (name ++ (" (" ++ (commas names ++ ")"))).toList =
      name.toList ++ ' ' :: '(' :: ((commas names).toList ++ [')']) := by
    rw [String.toList_append, String.toList_append, String.toList_append]
    rfl
  have letters : ∀ c ∈ name.toList, decide (c ≠ ' ') = true := fun c hc =>
    decide_eq_true fun same => word (same ▸ hc)
  rw [readMember, cut, List.takeWhile_append_of_pos letters, List.dropWhile_append_of_pos letters]
  simp [readCommas_commas h]

/-- What a plain line says is read from it. -/
theorem readLine_text {l : Line} (h : l.Plain) : readLine l.text = l := by
  cases l with
  | package name =>
    rw [readLine, Line.text_package, String.toList_append]
    exact congrArg Line.package String.ofList_toList
  | blank => rfl
  | file name =>
    rw [readLine, Line.text_file, String.toList_append]
    exact congrArg Line.file String.ofList_toList
  | type name =>
    rw [readLine, Line.text_type, String.toList_append]
    exact congrArg Line.type String.ofList_toList
  | annotations names =>
    have opened : (commas names ++ "]").toList.dropLast = (commas names).toList := by
      rw [String.toList_append]
      exact List.dropLast_concat
    rw [readLine, Line.text_annotations, String.toList_append]
    exact congrArg Line.annotations ((congrArg readCommas opened).trans (readCommas_commas h))
  | member kind name names =>
    rw [readLine, Line.text_member, String.toList_append]
    cases kind with
    | method => exact readMember_written .method h.2.1 h.2.2
    | field => exact readMember_written .field h.2.1 h.2.2

/-! ## Reading all lines -/

/-- What has been read of a report from its end: what stands below the next heading of each level. -/
structure Reading where
  methods : List MemberOutline := []
  fields : List MemberOutline := []
  annotations : List String := []
  types : List TypeOutline := []
  files : List FileOutline := []
  namespaces : List NamespaceOutline := []

/-- More members of the type that is being read. -/
def Reading.addMembers (kind : MemberKind) (members : List MemberOutline) (r : Reading) : Reading :=
  match kind with
  | .method => { r with methods := members ++ r.methods }
  | .field => { r with fields := members ++ r.fields }

/-- Reads one more line. A heading takes what has been read of the level below it. -/
def Reading.enter : Line → Reading → Reading
  | .package name, r => { r with files := [], namespaces := ⟨name, r.files⟩ :: r.namespaces }
  | .blank, r => r
  | .file name, r => { r with types := [], files := ⟨name, r.types⟩ :: r.files }
  | .type name, r =>
    { r with
      methods := []
      fields := []
      annotations := []
      types := ⟨name, r.annotations, r.methods, r.fields⟩ :: r.types }
  | .annotations names, r => { r with annotations := names }
  | .member kind name names, r => r.addMembers kind [⟨name, names⟩]

/-- What the lines of a report say of its tree. -/
def readOutline (s : String) : List NamespaceOutline :=
  (((pieces '\n' s).map readLine).foldr Reading.enter {}).namespaces

theorem foldr_members (kind : MemberKind) (members : List MemberOutline) (r : Reading) :
    (members.map (·.line kind)).foldr Reading.enter r = r.addMembers kind members := by
  induction members with
  | nil => cases kind <;> rfl
  | cons m rest ih =>
    rw [List.map_cons, List.foldr_cons, ih]
    cases kind <;> rfl

section

variable (types : List TypeOutline) (files : List FileOutline) (namespaces : List NamespaceOutline)

theorem foldr_types (more : List TypeOutline) :
    (more.flatMap TypeOutline.lines).foldr Reading.enter ⟨[], [], [], types, files, namespaces⟩ =
      ⟨[], [], [], more ++ types, files, namespaces⟩ := by
  induction more with
  | nil => rfl
  | cons t rest ih =>
    rw [List.flatMap_cons, List.foldr_append, ih, TypeOutline.lines, List.foldr_cons,
      List.foldr_cons, List.foldr_append, foldr_members, foldr_members]
    simp only [Reading.addMembers, List.append_nil]
    rfl

theorem foldr_files (more : List FileOutline) :
    (more.flatMap FileOutline.lines).foldr Reading.enter ⟨[], [], [], [], files, namespaces⟩ =
      ⟨[], [], [], [], more ++ files, namespaces⟩ := by
  induction more with
  | nil => rfl
  | cons f rest ih =>
    rw [List.flatMap_cons, List.foldr_append, ih, FileOutline.lines, List.foldr_cons, foldr_types,
      List.append_nil]
    rfl

end

theorem foldr_namespaces (namespaces : List NamespaceOutline) :
    (namespaces.flatMap NamespaceOutline.lines).foldr Reading.enter {} =
      ⟨[], [], [], [], [], namespaces⟩ := by
  induction namespaces with
  | nil => rfl
  | cons n rest ih =>
    have blank (r : Reading) : [Line.blank].foldr Reading.enter r = r := rfl
    rw [List.flatMap_cons, List.foldr_append, ih, NamespaceOutline.lines, List.foldr_cons,
      List.foldr_cons, List.foldr_append, blank, foldr_files, List.append_nil]
    rfl

/-! ## Reports read back -/

theorem MemberOutline.Plain.line {m : MemberOutline} (h : m.Plain) (kind : MemberKind) :
    (m.line kind).Plain := h

theorem TypeOutline.Plain.lines {t : TypeOutline} (h : t.Plain) : ∀ l ∈ t.lines, l.Plain := by
  obtain ⟨name, annotations, methods, fields⟩ := h
  intro l hl
  simp only [TypeOutline.lines, List.mem_cons, List.mem_append, List.mem_map] at hl
  obtain rfl | rfl | ⟨m, hm, rfl⟩ | ⟨m, hm, rfl⟩ := hl
  · exact name
  · exact annotations
  · exact (methods m hm).line .method
  · exact (fields m hm).line .field

theorem FileOutline.Plain.lines {f : FileOutline} (h : f.Plain) : ∀ l ∈ f.lines, l.Plain := by
  intro l hl
  simp only [FileOutline.lines, List.mem_cons, List.mem_flatMap] at hl
  obtain rfl | ⟨t, ht, hl⟩ := hl
  · exact h.1
  · exact (h.2 t ht).lines l hl

theorem NamespaceOutline.Plain.lines {n : NamespaceOutline} (h : n.Plain) :
    ∀ l ∈ n.lines, l.Plain := by
  intro l hl
  simp only [NamespaceOutline.lines, List.mem_cons, List.mem_append, List.mem_flatMap,
    List.not_mem_nil, or_false] at hl
  obtain rfl | rfl | ⟨f, hf, hl⟩ | rfl := hl
  · exact h.1
  · trivial
  · exact (h.2 f hf).lines l hl
  · trivial

theorem unbroken_append {s t : String} : Unbroken (s ++ t) ↔ Unbroken s ∧ Unbroken t := by
  rw [Unbroken, String.toList_append, List.mem_append, not_or, Unbroken, Unbroken]

theorem unbroken_commas {names : List String} (h : ∀ a ∈ names, Separable a) :
    Unbroken (commas names) := by
  induction names with
  | nil => decide
  | cons a rest ih =>
    obtain ⟨ha, hrest⟩ := List.forall_mem_cons.1 h
    cases rest with
    | nil =>
      rw [commas, String.intercalate_singleton]
      exact ha.2.1
    | cons b rest =>
      rw [commas, String.intercalate_cons_cons, unbroken_append, unbroken_append]
      exact ⟨⟨ha.2.1, by decide⟩, ih hrest⟩

/-- Plain names keep a line on its line. -/
theorem Line.Plain.unbroken {l : Line} (h : l.Plain) : Unbroken l.text := by
  cases l with
  | package name =>
    rw [Line.text_package, unbroken_append]
    exact ⟨by decide, h⟩
  | blank => decide
  | file name =>
    rw [Line.text_file, unbroken_append]
    exact ⟨by decide, h⟩
  | type name =>
    rw [Line.text_type, unbroken_append]
    exact ⟨by decide, h⟩
  | annotations names =>
    rw [Line.text_annotations, unbroken_append, unbroken_append]
    exact ⟨by decide, unbroken_commas h, by decide⟩
  | member kind name names =>
    have mark : Unbroken (memberMark kind) := by cases kind <;> decide
    rw [Line.text_member, unbroken_append, unbroken_append, unbroken_append, unbroken_append]
    exact ⟨mark, h.1, by decide, unbroken_commas h.2.2, by decide⟩

theorem pieces_written {lines : List Line} (h : ∀ l ∈ lines, l.Plain) :
    pieces '\n' (written lines) = lines.map Line.text ++ [""] := by
  induction lines with
  | nil => rfl
  | cons l rest ih =>
    obtain ⟨hl, hrest⟩ := List.forall_mem_cons.1 h
    rw [written_cons, pieces_append rfl hl.unbroken, ih hrest, List.map_cons, List.cons_append]

/-- What has been written of plain namespaces is read back. -/
theorem readOutline_written {namespaces : List NamespaceOutline} (h : ∀ n ∈ namespaces, n.Plain) :
    readOutline (written (namespaces.flatMap NamespaceOutline.lines)) = namespaces := by
  have plain : ∀ l ∈ namespaces.flatMap NamespaceOutline.lines, l.Plain := by
    intro l hl
    obtain ⟨n, hn, hl⟩ := List.mem_flatMap.1 hl
    exact (h n hn).lines l hl
  have lines : ((namespaces.flatMap NamespaceOutline.lines).map Line.text).map readLine =
      namespaces.flatMap NamespaceOutline.lines := by
    rw [List.map_map]
    exact (List.map_congr_left fun l hl => readLine_text (plain l hl)).trans (List.map_id _)
  rw [readOutline, pieces_written plain, List.map_append, lines, List.foldr_append]
  exact congrArg Reading.namespaces (foldr_namespaces namespaces)

/-- Two reports of plain trees with one heading are the same text exactly where the trees have the
same outline. -/
theorem Tree.render_eq_render_iff {t u : Tree} (headings : t.heading = u.heading) (ht : t.Plain)
    (hu : u.Plain) : t.render .insertion = u.render .insertion ↔ t.outline = u.outline := by
  rw [Tree.render_eq, Tree.render_eq, headings, String.append_right_inj]
  constructor
  · intro same
    rw [← readOutline_written ht, same, readOutline_written hu]
  · intro same
    rw [same]

/-- A tree with an empty namespace, an empty file and a type without annotations. -/
def commaTree (directory : String) (id : Id) (annotations : List String) : Tree where
  heading := ⟨"acme", "tool", none⟩
  namespaces := [
    { node := ⟨id, "acme/tool", "bare", none⟩, files := some [] },
    { node := ⟨id + 1, "acme/tool", "com", none⟩
      files := some [
        { fact := ⟨id, "acme/tool", id + 1, directory ++ "/Empty.java", "", 1⟩, types := some [] },
        { fact := ⟨id + 1, "acme/tool", id + 1, directory ++ "/A.java", "", 1⟩
          types := some [
            { fact := ⟨id, id + 1, 0, "A", [], none⟩
              methods := some [⟨id, id, 0, "run", .method, annotations, none⟩]
              fields := some [⟨id + 1, id, 1, "x", .field, [], some "The place."⟩] }] }] }]

/-- It shows on which side of a separator a comma stands, and it does not show directories and ids. -/
theorem render_eq_render_iff_of_commas :
    let t := commaTree "src" 1 ["a,", "b"]
    let u := commaTree "src" 1 ["a", ",b"]
    let v := commaTree "lib/main" 7 ["a,", "b"]
    (t.isComplete ∧ t.Plain) ∧ (u.isComplete ∧ u.Plain) ∧ (v.isComplete ∧ v.Plain) ∧
      t.render .insertion ≠ u.render .insertion ∧
      t ≠ v ∧ t.render .insertion = v.render .insertion := by
  intro t u v
  have ht : t.isComplete ∧ t.Plain := by decide
  have hu : u.isComplete ∧ u.Plain := by decide
  have hv : v.isComplete ∧ v.Plain := by decide
  have apart : t.render .insertion = u.render .insertion ↔ t.outline = u.outline :=
    Tree.render_eq_render_iff rfl ht.2 hu.2
  have alike : t.render .insertion = v.render .insertion ↔ t.outline = v.outline :=
    Tree.render_eq_render_iff rfl ht.2 hv.2
  exact ⟨ht, hu, hv, mt apart.1 (by decide), by decide, alike.2 (by decide)⟩

end CodeOutline.Report
