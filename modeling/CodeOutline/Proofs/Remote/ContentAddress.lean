import CodeOutline.Proofs.Remote.Content

/-!
# Addresses of contents read back

The address of a file's contents is the API root, and behind it the owner, the name and the path, each
escaped. A slash of the owner or of the name is escaped and one of the path is not, so the slashes show
where each of them ends, and all three are read off the address again (`readContentUrl?`). An empty path
has no segment, and every other path has one at least. So no two files of the service have one address
(`contentUrl_faithful`).
-/

namespace CodeOutline.Remote

open CodeOutline.Text

namespace Client

variable (c : Client) (owner name path : String)

/-- The owner, the name and the path in the address of a file's contents. -/
def readContentUrl? (url : String) : Option (String × String × String) :=
  match pieces '/' (String.ofList (url.toList.drop (c.apiUrl.length + 1))) with
  | "repos" :: owner :: name :: "contents" :: path => do
    let segments ← path.mapM Percent.read?
    return (← Percent.read? owner, ← Percent.read? name, joinWith "/" segments)
  | _ => none

/-- The segments of a path, escaped. -/
def escapedSegments (path : String) : List String :=
  if path = "" then [] else (pieces '/' path).map (Percent.escape [])

/-- The part of an address that names a path. -/
def pathPart (path : String) : String :=
  if path = "" then "contents" else "contents" ++ "/" ++ Percent.escape ['/'] path

/-- What is behind the API root in the address of a file's contents. -/
def behindRoot (owner name path : String) : String :=
  "repos" ++ "/" ++ (Percent.escape [] owner ++ "/" ++ (Percent.escape [] name ++ "/" ++ pathPart path))

theorem contentUrl_eq :
    c.contentUrl owner name path = c.apiUrl ++ "/" ++ behindRoot owner name path := by
  have kept : Percent.escape ['/'] "contents" = "contents" := by decide
  unfold contentUrl repositoryUrl behindRoot pathPart
  by_cases h : path = ""
  · have parts : ["contents", path].filter (!·.isEmpty) = ["contents"] := by simp [h]
    rw [parts, if_pos h, ← String.toList_inj]
    simp [joinWith, kept]
  · have parts : ["contents", path].filter (!·.isEmpty) = ["contents", path] := by simp [h]
    rw [parts, if_neg h, ← String.toList_inj]
    simp [joinWith, kept]

/-! ## The form of an address -/

theorem isEscaped_pathPart : Percent.IsEscaped ['/'] (pathPart path).toList := by
  have word : Percent.IsEscaped ['/'] "contents".toList := Percent.isEscaped_of_kept (by decide)
  have slash : Percent.IsEscaped ['/'] "/".toList := Percent.isEscaped_of_kept (by decide)
  unfold pathPart
  split
  · exact word
  · rw [String.toList_append, String.toList_append]
    exact (word.append slash).append (Percent.isEscaped_escape ['/'] path)

theorem isEscaped_behindRoot : Percent.IsEscaped ['/'] (behindRoot owner name path).toList := by
  have word : Percent.IsEscaped ['/'] "repos".toList := Percent.isEscaped_of_kept (by decide)
  have slash : Percent.IsEscaped ['/'] "/".toList := Percent.isEscaped_of_kept (by decide)
  have part (s : String) : Percent.IsEscaped ['/'] (Percent.escape [] s).toList :=
    (Percent.isEscaped_escape [] s).mono (List.nil_subset _)
  simp only [behindRoot, String.toList_append]
  exact (word.append slash).append <| ((part owner).append slash).append <|
    ((part name).append slash).append (isEscaped_pathPart path)

/-- A character that has no place behind the API root can only be in the root. -/
theorem mem_contentUrl_iff {mark : Char} (reserved : Percent.isUnreserved mark = false)
    (other : mark ∉ ['/']) (hmark : mark ≠ '%') :
    mark ∈ (c.contentUrl owner name path).toList ↔ mark ∈ c.apiUrl.toList := by
  have behind : mark ∉ (behindRoot owner name path).toList :=
    (isEscaped_behindRoot owner name path).notMem reserved other hmark
  have slash : mark ≠ '/' := fun e => other (List.mem_singleton.2 e)
  rw [contentUrl_eq, String.toList_append, String.toList_append, List.mem_append, List.mem_append]
  simp [behind, slash]

/-! ## Reading an address -/

theorem pieces_pathPart : pieces '/' (pathPart path) = "contents" :: escapedSegments path := by
  unfold pathPart escapedSegments
  split
  · exact pieces_of_notMem (by decide)
  · rw [pieces_append rfl (by decide), Percent.pieces_escape]

/-- Cut at its slashes, the address has the owner, the name and the segments of the path. -/
theorem pieces_behindRoot :
    pieces '/' (behindRoot owner name path) =
      "repos" :: Percent.escape [] owner :: Percent.escape [] name :: "contents" ::
        escapedSegments path := by
  have plain (s : String) : '/' ∉ (Percent.escape [] s).toList :=
    (Percent.isEscaped_escape [] s).notMem (by decide) List.not_mem_nil (by decide)
  rw [behindRoot, pieces_append rfl (by decide), pieces_append rfl (plain owner),
    pieces_append rfl (plain name), pieces_pathPart]

theorem mapM_read?_escape (segments : List String) :
    (segments.map (Percent.escape [])).mapM Percent.read? = some segments := by
  induction segments with
  | nil => rfl
  | cons segment rest ih =>
    rw [List.map_cons, List.mapM_cons, Percent.read?_escape List.not_mem_nil, ih]
    rfl

/-- The segments of a path read back as the path. -/
theorem read_escapedSegments :
    ∃ segments, (escapedSegments path).mapM Percent.read? = some segments ∧
      joinWith "/" segments = path := by
  unfold escapedSegments
  split
  · next h => exact ⟨[], rfl, h.symm⟩
  · exact ⟨_, mapM_read?_escape _, joinWith_pieces rfl path⟩

theorem readContentUrl?_contentUrl :
    c.readContentUrl? (c.contentUrl owner name path) = some (owner, name, path) := by
  have behind : String.ofList ((c.contentUrl owner name path).toList.drop (c.apiUrl.length + 1)) =
      behindRoot owner name path := by
    have size : c.apiUrl.length + 1 = (c.apiUrl ++ "/").toList.length := by
      rw [String.length_toList, String.length_append]
      rfl
    rw [contentUrl_eq, String.toList_append, size, List.drop_left, String.ofList_toList]
  obtain ⟨segments, read, joined⟩ := read_escapedSegments path
  unfold readContentUrl?
  rw [behind, pieces_behindRoot]
  change (do
    let segments ← (escapedSegments path).mapM Percent.read?
    return (← Percent.read? (Percent.escape [] owner), ← Percent.read? (Percent.escape [] name),
      joinWith "/" segments)) = _
  rw [read, Percent.read?_escape List.not_mem_nil, Percent.read?_escape List.not_mem_nil]
  exact congrArg (fun path => some (owner, name, path)) joined

/-- The address of a file's contents is the API root, and unreserved characters, slashes and escapes
behind it, so that a query or a fragment can only come from the root. It reads back as the owner, the
name and the path, and so no other owner, name or path has the same address. -/
theorem contentUrl_faithful :
    (∀ owner name path, ∃ behind, c.contentUrl owner name path = c.apiUrl ++ "/" ++ behind ∧
        Percent.IsEscaped ['/'] behind.toList ∧
        ('?' ∈ (c.contentUrl owner name path).toList ↔ '?' ∈ c.apiUrl.toList) ∧
        ('#' ∈ (c.contentUrl owner name path).toList ↔ '#' ∈ c.apiUrl.toList) ∧
        c.readContentUrl? (c.contentUrl owner name path) = some (owner, name, path)) ∧
      Function.Injective fun file : String × String × String =>
        c.contentUrl file.1 file.2.1 file.2.2 := by
  constructor
  · intro owner name path
    refine ⟨behindRoot owner name path, contentUrl_eq .., isEscaped_behindRoot .., ?_, ?_,
      readContentUrl?_contentUrl ..⟩
    · exact mem_contentUrl_iff c owner name path (by decide) (by decide) (by decide)
    · exact mem_contentUrl_iff c owner name path (by decide) (by decide) (by decide)
  · intro file file' same
    have read := congrArg c.readContentUrl? same
    dsimp only at read
    rw [readContentUrl?_contentUrl, readContentUrl?_contentUrl] at read
    exact Option.some.inj read

/-- A slash of the owner is escaped, and one of the path is kept. -/
example (h : c.apiUrl = "https://api.github.com") :
    c.contentUrl "a/b" "c?" "d e/f" =
      "https://api.github.com/repos/a%2Fb/c%3F/contents/d%20e/f" := by
  rw [contentUrl, repositoryUrl, h]
  decide

end Client

end CodeOutline.Remote
