import CodeOutline.Proofs.Data.Entries
import CodeOutline.Proofs.Data.Outcome
import CodeOutline.Proofs.Remote.Content

/-!
# The walk through a remote tree

A listing asks for the contents of a directory and goes on with each directory among them. On a tree of
finite depth, however wide it is, the walk ends, and it is known to the last request (`listFiles_tree`):
it has the files of the tree depth first in the order of the entries, asks once for each directory that
it comes by, and leaves out what is below a directory that refuses, unless that is the base path.

A tree is given by what each request brings, so a directory that two entries name stands in it twice.
The induction is on the tree; the bound on the descent is only compared with the tree's height.
-/

namespace CodeOutline.Remote

open CodeOutline.Data CodeOutline.Log CodeOutline.Text

/-! ## Trees -/

mutual

/-- What the request for the contents of a directory brings. -/
inductive Contents where
  /-- A failure that callers are prepared for. -/
  | refused (fault : FetchFault)
  /-- One entry alone, as where the path names a file. -/
  | single (entry : Listed)
  | several (entries : List Listed)

/-- An entry among the contents of a directory. -/
inductive Listed where
  | file (path : String)
  | directory (path : String) (contents : Contents)
  /-- A link, or another thing that is no file and no directory. -/
  | other

end

mutual

/-- The number of directories that are nested in each other, the outermost one included. -/
def Contents.height : Contents → Nat
  | .refused _ => 1
  | .single entry => entry.height + 1
  | .several entries => heightOfAll entries + 1

/-- The number of directories that are nested in each other in an entry. -/
def Listed.height : Listed → Nat
  | .directory _ contents => contents.height
  | .file _ | .other => 0

/-- The greatest height among the entries. -/
def heightOfAll : List Listed → Nat
  | [] => 0
  | entry :: rest => max entry.height (heightOfAll rest)

end

/-- What the walk comes by. -/
inductive Stop where
  | directory (path : String)
  /-- The directory before it has refused. -/
  | refusal (path : String) (fault : FetchFault)
  | file (path : String)

mutual

/-- What the walk comes by from the directory at a path on, depth first. -/
def Contents.stops (path : String) : Contents → List Stop
  | .refused fault => [.directory path, .refusal path fault]
  | .single entry => .directory path :: entry.stops
  | .several entries => .directory path :: stopsOfAll entries

/-- What the walk comes by in an entry. -/
def Listed.stops : Listed → List Stop
  | .file path => [.file path]
  | .directory path contents => contents.stops path
  | .other => []

/-- What the walk comes by in each of the entries in turn. -/
def stopsOfAll : List Listed → List Stop
  | [] => []
  | entry :: rest => entry.stops ++ stopsOfAll rest

end

/-- The failure of a directory that refuses. -/
def Contents.fault? : Contents → Option FetchFault
  | .refused fault => some fault
  | .single _ | .several _ => none

theorem Contents.height_pos (contents : Contents) : 1 ≤ contents.height := by
  cases contents <;> simp [Contents.height]

theorem Contents.stops_of_fault {contents : Contents} {path : String} {fault : FetchFault}
    (h : contents.fault? = some fault) :
    contents.stops path = [.directory path, .refusal path fault] := by
  cases contents with
  | refused f =>
    cases h
    rfl
  | single _ | several _ => cases h

/-- The paths of the files. -/
def filesAt : List Stop → List String :=
  List.filterMap fun | .file path => some path | _ => none

/-- The paths of the directories. -/
def directoriesAt : List Stop → List String :=
  List.filterMap fun | .directory path => some path | _ => none

/-- The directories that refuse, and why. -/
def refusalsAt : List Stop → List (String × FetchFault) :=
  List.filterMap fun | .refusal path fault => some (path, fault) | _ => none

/-! ## Answers -/

section Walk

variable (c : Client) (net : Network) (owner name : String)

/-- The service's answer about a directory. -/
def Client.directoryAnswer (path : String) : Except RemoteFault Datum :=
  (c.getJson net (c.contentUrl owner name path)).result

mutual

/-- The service answers for the directory at a path, and for all below it, as the tree says. -/
def Contents.ServedAt (path : String) : Contents → Prop
  | .refused fault => c.directoryAnswer net owner name path = .error (.fetch fault)
  | .single entry => ∃ fields, c.directoryAnswer net owner name path = .ok (.map fields) ∧
      entry.ServedAs fields
  | .several entries => ∃ items, c.directoryAnswer net owner name path = .ok (.list items) ∧
      AllServedAs items entries

/-- The fields of an entry say what it is, and the service answers for a directory as the tree says. -/
def Listed.ServedAs (fields : List (Datum × Datum)) : Listed → Prop
  | .file path => Datum.get? "type" fields = some (.text "file") ∧
      Datum.get? "path" fields = some (.text path)
  | .directory path contents => Datum.get? "type" fields = some (.text "dir") ∧
      Datum.get? "path" fields = some (.text path) ∧ contents.ServedAt path
  | .other => Datum.get? "type" fields ≠ some (.text "file") ∧
      Datum.get? "type" fields ≠ some (.text "dir")

/-- The items of an answer are the entries, one by one. -/
def AllServedAs (items : List Datum) : List Listed → Prop
  | [] => items = []
  | entry :: rest => ∃ fields others, items = .map fields :: others ∧ entry.ServedAs fields ∧
      AllServedAs others rest

end

/-- The request for the contents of a directory. -/
def Client.directoryRequest (path : String) : Request :=
  c.request (c.contentAddress owner name path) jsonMedia

/-- The report on a directory that is left out. -/
def refusalEvent (refusal : String × FetchFault) : Event :=
  warning "list_dir_failed" [("owner", .text owner), ("repo", .text name),
    ("path", .text refusal.1), ("error", .text refusal.2.message)]

/-- A file as it is listed. -/
def fileEntry (path : String) : Client.Entry := ⟨.text path, "file"⟩

/-- The call that has come by these stops. -/
def walked (stops : List Stop) : Call (List Client.Entry) where
  result := .ok ((filesAt stops).map fileEntry)
  requests := (directoriesAt stops).map (c.directoryRequest owner name)
  events := (refusalsAt stops).map (refusalEvent owner name)

/-- What is found below an item of an answer. -/
def Client.filesOfItem (depth : Nat) : Datum → Call (List Client.Entry)
  | .map fields =>
    let below := (Datum.get? "path" fields).getD (.text "")
    match Datum.get? "type" fields with
    | some (.text "dir") => c.filesBelow net owner name depth below false
    | some (.text "file") => pure [⟨below, "file"⟩]
    | _ => pure []
  | _ => .fail (.shape .notAnObject)

/-! ## Calls -/

/-- A call that succeeds, and then another one. -/
theorem ok_bind {α β : Type} (a : α) (requests : List Request) (events : List Event)
    (next : α → Call β) :
    ((⟨.ok a, requests, events⟩ : Call α) >>= next) =
      ⟨(next a).result, requests ++ (next a).requests, events ++ (next a).events⟩ :=
  rfl

/-- One call after another that have come by their stops. -/
theorem walked_append (stops others : List Stop) :
    (do return (← walked c owner name stops) ++ (← walked c owner name others)) =
      walked c owner name (stops ++ others) := by
  simp only [walked, ok_bind, filesAt, directoriesAt, refusalsAt, List.filterMap_append,
    List.map_append]
  simp [pure]

/-- A call that only looks at an answer makes no request and no report. -/
theorem bind_quiet {α β : Type} {call : Call α} {next : α → Call β}
    (quiet : ∀ a, (next a).requests = [] ∧ (next a).events = []) :
    (call >>= next).requests = call.requests ∧ (call >>= next).events = call.events := by
  change (call.andThen next).requests = _ ∧ (call.andThen next).events = _
  unfold Call.andThen
  cases call.result with
  | error fault => exact ⟨rfl, rfl⟩
  | ok a => simp [quiet a]

/-- Whatever a directory answers, it has been asked once. -/
theorem getJson_eq (path : String) :
    c.getJson net (c.contentUrl owner name path) =
      ⟨c.directoryAnswer net owner name path, [c.directoryRequest owner name path], []⟩ := by
  have once : (c.getJson net (c.contentUrl owner name path)).requests =
        [c.directoryRequest owner name path] ∧
      (c.getJson net (c.contentUrl owner name path)).events = [] := by
    unfold Client.getJson
    apply bind_quiet
    intro ⟨octets, media⟩
    dsimp only
    cases Json.read octets with
    | ok d => exact ⟨rfl, rfl⟩
    | error fault => cases fault <;> exact ⟨rfl, rfl⟩
  rw [← once.1, ← once.2]
  rfl

/-- The contents of a directory are what it answers. A refusal is none below the base path. -/
theorem contentsOf_eq (path : String) (isRoot : Bool) :
    c.contentsOf net owner name (.text path) isRoot =
      match c.directoryAnswer net owner name path with
      | .ok answer => ⟨.ok (some answer), [c.directoryRequest owner name path], []⟩
      | .error (.fetch fault) =>
        if isRoot then ⟨.error (.fetch fault), [c.directoryRequest owner name path], []⟩
        else ⟨.ok none, [c.directoryRequest owner name path],
          [refusalEvent owner name (path, fault)]⟩
      | .error fault => ⟨.error fault, [c.directoryRequest owner name path], []⟩ := by
  have request : (do
      let parts ← Call.ofExcept (Client.pathParts (.text path))
      return some (← c.getJson net (c.repositoryUrl owner name ("contents" :: parts))) :
        Call (Option Datum)) =
      ((⟨c.directoryAnswer net owner name path, [c.directoryRequest owner name path], []⟩ :
        Call Datum) >>= fun answer => pure (some answer)) := by
    rw [← getJson_eq]
    rfl
  unfold Client.contentsOf
  rw [request]
  cases c.directoryAnswer net owner name path with
  | ok answer => rfl
  | error fault =>
    cases fault with
    | fetch fault => cases isRoot <;> rfl
    | _ => rfl

/-- A directory that answers is gone through item by item. -/
theorem filesBelow_of_answer {depth : Nat} {path : String} {answer : Datum} {items : List Datum}
    (isRoot : Bool) (answered : c.directoryAnswer net owner name path = .ok answer)
    (entered : Client.entriesOf answer = .ok items) :
    c.filesBelow net owner name (depth + 1) (.text path) isRoot =
      ((⟨.ok (), [c.directoryRequest owner name path], []⟩ : Call Unit) >>= fun _ => do
        return (← items.mapM (c.filesOfItem net owner name depth)).flatten) := by
  unfold Client.filesBelow
  rw [contentsOf_eq, answered]
  dsimp only
  rw [ok_bind, ok_bind]
  dsimp only
  rw [entered]
  rfl

/-- The first item, and then the others. -/
theorem flatten_mapM_cons {α β : Type} (f : α → Call (List β)) (item : α) (others : List α) :
    (do return (← (item :: others).mapM f).flatten) =
      (do return (← f item) ++ (← (do return (← others.mapM f).flatten))) := by
  simp [List.mapM_cons]

theorem flatten_mapM_nil {α β : Type} (f : α → Call (List β)) :
    (do return (← ([] : List α).mapM f).flatten) = pure [] := by
  simp

/-- A directory that answers is the first stop, and those of its entries follow. -/
theorem walked_cons (path : String) (stops : List Stop) :
    ((⟨.ok (), [c.directoryRequest owner name path], []⟩ : Call Unit) >>=
      fun _ => walked c owner name stops) = walked c owner name (.directory path :: stops) :=
  rfl

/-! ## The walk -/

mutual

/-- The walk from a directory on comes by the stops of its tree. -/
theorem filesBelow_eq : ∀ (contents : Contents) {depth : Nat} {path : String} {isRoot : Bool},
    contents.ServedAt c net owner name path → contents.height ≤ depth →
    (isRoot = true → contents.fault? = none) →
    c.filesBelow net owner name depth (.text path) isRoot =
      walked c owner name (contents.stops path)
  | .refused fault, depth + 1, path, isRoot, served, _, opened => by
    have below : isRoot = false := Bool.eq_false_iff.2 fun root => nomatch opened root
    have answered : c.directoryAnswer net owner name path = .error (.fetch fault) := served
    unfold Client.filesBelow
    rw [contentsOf_eq, answered, below]
    rfl
  | .single entry, depth + 1, path, isRoot, served, deep, _ => by
    obtain ⟨fields, answered, shown⟩ := served
    have found := filesOfItem_eq entry shown (Nat.le_of_succ_le_succ deep)
    rw [filesBelow_of_answer c net owner name isRoot answered rfl, flatten_mapM_cons, found,
      flatten_mapM_nil, Contents.stops, ← walked_cons]
    simp
  | .several entries, depth + 1, path, isRoot, served, deep, _ => by
    obtain ⟨items, answered, shown⟩ := served
    have found := mapM_filesOfItem_eq entries shown (Nat.le_of_succ_le_succ deep)
    rw [filesBelow_of_answer c net owner name isRoot answered rfl, found, walked_cons,
      Contents.stops]

/-- The walk in an entry comes by its stops. -/
theorem filesOfItem_eq : ∀ (entry : Listed) {depth : Nat} {fields : List (Datum × Datum)},
    entry.ServedAs c net owner name fields → entry.height ≤ depth →
    c.filesOfItem net owner name depth (.map fields) = walked c owner name entry.stops
  | .file path, depth, fields, served, _ => by
    obtain ⟨kind, place⟩ := served
    simp only [Client.filesOfItem, kind, place]
    rfl
  | .directory path contents, depth, fields, served, deep => by
    obtain ⟨kind, place, below⟩ := served
    have found : c.filesBelow net owner name depth (.text path) false =
        walked c owner name (contents.stops path) :=
      filesBelow_eq contents below deep nofun
    simp only [Client.filesOfItem, kind, place]
    exact found
  | .other, depth, fields, served, _ => by
    obtain ⟨file, directory⟩ := served
    simp only [Client.filesOfItem]
    rfl

/-- The walk in the entries of a directory comes by their stops in turn. -/
theorem mapM_filesOfItem_eq : ∀ (entries : List Listed) {depth : Nat} {items : List Datum},
    AllServedAs c net owner name items entries → heightOfAll entries ≤ depth →
    (do return (← items.mapM (c.filesOfItem net owner name depth)).flatten) =
      walked c owner name (stopsOfAll entries)
  | [], depth, items, served, _ => by
    have none : items = [] := served
    rw [none, flatten_mapM_nil]
    rfl
  | entry :: rest, depth, items, served, deep => by
    obtain ⟨fields, others, rfl, shown, more⟩ := served
    have first := filesOfItem_eq entry shown (le_trans (le_max_left ..) deep)
    have then_ := mapM_filesOfItem_eq rest more (le_trans (le_max_right ..) deep)
    rw [flatten_mapM_cons, first, then_, walked_append]
    rfl

end

/-! ## The listing -/

/-- A base path that refuses is the listing's failure. -/
theorem listFiles_of_refusal {basePath : String} {fault : FetchFault}
    (refused : c.directoryAnswer net owner name (trimOf '/' basePath) = .error (.fetch fault))
    (deep : 1 ≤ net.depth) :
    c.listFiles net owner name basePath =
      ⟨.error (.fetch fault), [c.directoryRequest owner name (trimOf '/' basePath)], []⟩ := by
  obtain ⟨depth, hdepth⟩ := Nat.exists_eq_add_of_le' deep
  unfold Client.listFiles
  rw [hdepth]
  unfold Client.filesBelow
  dsimp only
  rw [contentsOf_eq, refused]
  rfl

/-- A base path that answers is walked, and the number of files is reported. -/
theorem listFiles_of_answer {basePath : String} {contents : Contents}
    (served : contents.ServedAt c net owner name (trimOf '/' basePath))
    (deep : contents.height ≤ net.depth) (opened : contents.fault? = none) :
    c.listFiles net owner name basePath =
      (walked c owner name (contents.stops (trimOf '/' basePath)) >>= fun found =>
        ⟨.ok found, [], [info "files_listed" [("owner", .text owner), ("repo", .text name),
          ("path", .text (trimOf '/' basePath)), ("count", .int found.length)]]⟩) := by
  unfold Client.listFiles
  dsimp only
  rw [filesBelow_eq c net owner name contents served deep fun _ => opened]
  rfl

variable {c net owner name} in
/-- A directory refuses where its tree does. -/
theorem Contents.ServedAt.refuses_iff {contents : Contents} {path : String}
    (served : contents.ServedAt c net owner name path) (fault : FetchFault) :
    c.directoryAnswer net owner name path = .error (.fetch fault) ↔
      contents.fault? = some fault := by
  cases contents with
  | refused f =>
    have answer : c.directoryAnswer net owner name path = .error (.fetch f) := served
    simp [answer, Contents.fault?]
  | single entry =>
    obtain ⟨fields, answer, -⟩ := served
    simp [answer, Contents.fault?]
  | several entries =>
    obtain ⟨items, answer, -⟩ := served
    simp [answer, Contents.fault?]

/-- On a tree of finite depth, the listing of the base path fails just where the base path refuses.
Otherwise it has the files of the tree depth first. It asks once for each directory that it comes by, and
reports each one below the base path that is left out. -/
theorem listFiles_tree {basePath : String} {contents : Contents}
    (served : contents.ServedAt c net owner name (trimOf '/' basePath))
    (deep : contents.height ≤ net.depth) :
    let base := trimOf '/' basePath
    let stops := contents.stops base
    let files := (filesAt stops).map fileEntry
    let listing := c.listFiles net owner name basePath
    (∀ fault, listing.result = .error fault ↔
        ∃ f, c.directoryAnswer net owner name base = .error (.fetch f) ∧ fault = .fetch f) ∧
      (∀ found, listing.result = .ok found ↔
        (∀ f, c.directoryAnswer net owner name base ≠ .error (.fetch f)) ∧ found = files) ∧
      listing.requests = (directoriesAt stops).map (c.directoryRequest owner name) ∧
      (contents.fault? = none → listing.events = (refusalsAt stops).map (refusalEvent owner name) ++
        [info "files_listed" [("owner", .text owner), ("repo", .text name), ("path", .text base),
          ("count", .int files.length)]]) := by
  intro base stops files listing
  have refuses (f : FetchFault) : c.directoryAnswer net owner name base = .error (.fetch f) ↔
      contents.fault? = some f := served.refuses_iff f
  simp only [refuses, ne_eq]
  cases h : contents.fault? with
  | some fault =>
    have refused := (served.refuses_iff fault).2 h
    have call : listing = ⟨.error (.fetch fault), [c.directoryRequest owner name base], []⟩ :=
      listFiles_of_refusal c net owner name refused (le_trans contents.height_pos deep)
    have alone : stops = [.directory base, .refusal base fault] := contents.stops_of_fault h
    rw [call, alone]
    simp [directoriesAt, eq_comm (a := RemoteFault.fetch fault)]
  | none =>
    have call : listing = _ := listFiles_of_answer c net owner name served deep h
    rw [call]
    simp [walked, ok_bind, files, stops, base, eq_comm]

end Walk

/-! ## A tree with a closed directory -/

/-- A directory with a directory that cannot be listed, a link, a file and a directory whose path names
a single file. -/
def closedTree : Contents :=
  .several [.directory "s/a" (.refused (.status 404 "h/repos/o/r/contents/s/a")), .other,
    .file "s/B.java", .directory "s/c" (.single (.file "s/c"))]

/-- A network that serves the tree. -/
def closedTreeNetwork : Network where
  answer url :=
    match [("h/repos/o/r/contents/s",
        "[\x7b\"type\":\"dir\",\"path\":\"s/a\"\x7d,\x7b\"type\":\"symlink\",\"path\":\"s/l\"\x7d," ++
          "\x7b\"type\":\"file\",\"path\":\"s/B.java\"\x7d,\x7b\"type\":\"dir\",\"path\":\"s/c\"\x7d]"),
      ("h/repos/o/r/contents/s/c",
        "\x7b\"type\":\"file\",\"path\":\"s/c\"\x7d")].lookup url with
    | some text => .body (text.toList.flatMap String.utf8EncodeChar) none
    | none => .status 404
  depth := 2

def anonymousClient : Client := ⟨none, "h", .int 30⟩

/-- The fields of an entry of a listing. -/
def entryFields (kind path : String) : List (Datum × Datum) :=
  [(.text "type", .text kind), (.text "path", .text path)]

theorem get_type_entryFields (kind path : String) :
    Datum.get? "type" (entryFields kind path) = some (.text kind) :=
  Datum.get?_cons_self _ _

theorem get_path_entryFields (kind path : String) :
    Datum.get? "path" (entryFields kind path) = some (.text path) := by
  have other : Datum.text "type" ≠ .text "path" := by decide
  rw [entryFields, Datum.get?_cons_of_ne other]
  exact Datum.get?_cons_self _ _

theorem closedTree_served :
    closedTree.ServedAt anonymousClient closedTreeNetwork "o" "r" (trimOf '/' "/s/") := by
  have base : anonymousClient.directoryAnswer closedTreeNetwork "o" "r" (trimOf '/' "/s/") =
      .ok (.list [.map (entryFields "dir" "s/a"), .map (entryFields "symlink" "s/l"),
        .map (entryFields "file" "s/B.java"), .map (entryFields "dir" "s/c")]) :=
    eq_ok_of_toOption (by decide +kernel)
  have closed : anonymousClient.directoryAnswer closedTreeNetwork "o" "r" "s/a" =
      .error (.fetch (.status 404 "h/repos/o/r/contents/s/a")) :=
    eq_error_of_faultOf? (by decide +kernel)
  have alone : anonymousClient.directoryAnswer closedTreeNetwork "o" "r" "s/c" =
      .ok (.map (entryFields "file" "s/c")) :=
    eq_ok_of_toOption (by decide +kernel)
  have entry (kind path : String) := And.intro (get_type_entryFields kind path)
    (get_path_entryFields kind path)
  have link : Listed.ServedAs anonymousClient closedTreeNetwork "o" "r"
      (entryFields "symlink" "s/l") .other := by
    constructor <;> simp [get_type_entryFields]
  exact ⟨_, base, _, _, rfl, ⟨(entry ..).1, (entry ..).2, closed⟩, _, _, rfl, link, _, _, rfl, entry ..,
    _, _, rfl, ⟨(entry ..).1, (entry ..).2, _, alone, entry ..⟩, rfl⟩

/-- The closed directory is asked once and left out; the others are gone through. -/
theorem listFiles_closedTree :
    closedTree.ServedAt anonymousClient closedTreeNetwork "o" "r" (trimOf '/' "/s/") ∧
      closedTree.height ≤ closedTreeNetwork.depth ∧
      (anonymousClient.listFiles closedTreeNetwork "o" "r" "/s/").result =
        .ok [fileEntry "s/B.java", fileEntry "s/c"] ∧
      (anonymousClient.listFiles closedTreeNetwork "o" "r" "/s/").requests =
        ["s", "s/a", "s/c"].map (anonymousClient.directoryRequest "o" "r") := by
  have base : trimOf '/' "/s/" = "s" := by decide +kernel
  have deep : closedTree.height ≤ closedTreeNetwork.depth := by decide
  obtain ⟨-, files, requests, -⟩ := listFiles_tree anonymousClient closedTreeNetwork "o" "r"
    closedTree_served deep
  refine ⟨closedTree_served, deep, (files _).2 ⟨fun f => ?_, rfl⟩, ?_⟩
  · intro refused
    exact nomatch (closedTree_served.refuses_iff f).1 refused
  · rw [requests, base]
    rfl

end CodeOutline.Remote
