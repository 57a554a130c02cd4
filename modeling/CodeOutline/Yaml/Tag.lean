import CodeOutline.Text.Utf8
import CodeOutline.Yaml.Cursor

/-!
# Tags, directives and anchors

A tag says what kind of value a node is. It is written whole, as `!<name>`, or as a handle and a
suffix, as `!!name`; a directive at the top of a document says what a handle stands for.
-/

namespace CodeOutline.Yaml

open CodeOutline.Text

/-- A tag as it is written. -/
structure TagText where
  /-- What stands for the beginning of the tag; `none` where the tag is written whole. -/
  handle : Option String
  suffix : String
  deriving Repr, DecidableEq

/-- A line before a document that says how to read it. -/
inductive Directive where
  /-- The version of the format. -/
  | version (major minor : Nat)
  /-- What a handle stands for. -/
  | handle (name beginning : String)
  /-- Any other; it says nothing. -/
  | other
  deriving Repr, DecidableEq

/-- A character of a tag's name. -/
def isTagChar (c : Char) : Bool :=
  c.isAlphanum || "-;/?:@&=+$,_.!~*'()[]%".toList.contains c

/-- The octets of the percent escapes that come next, and the place after them. -/
def tagOctets : Nat → Octets → Cursor → Except ReadFault (Octets × Cursor)
  | 0, octets, p => .ok (octets, p)
  | fuel + 1, octets, p =>
    if p.next? = some '%' then
      match hexNumber? 2 p.forward.rest with
      | some n => tagOctets fuel (octets ++ [UInt8.ofNat n]) (p.advance 3)
      | none => .error .malformed
    else .ok (octets, p)

/-- The characters of a tag's name, given those before in reverse, and the place after them. -/
def tagNameFrom : Nat → List Char → Cursor → Except ReadFault (List Char × Cursor)
  | 0, done, p => .ok (done, p)
  | fuel + 1, done, p =>
    match p.next? with
    | some '%' => do
      let (octets, q) ← tagOctets p.rest.length [] p
      match Utf8.decode octets with
      | .ok cs => tagNameFrom fuel (cs.reverse ++ done) q
      | .error _ => .error .malformed
    | some c => if isTagChar c then tagNameFrom fuel (c :: done) p.forward else .ok (done, p)
    | none => .ok (done, p)

/-- The name of a tag and the place after it. A name has at least one character. -/
def tagName (p : Cursor) : Except ReadFault (String × Cursor) := do
  let (done, q) ← tagNameFrom p.rest.length [] p
  if q.index = p.index then throw .malformed
  return (String.ofList done.reverse, q)

/-- The handle that comes next: a mark alone, or a name between two marks. -/
def tagHandle (p : Cursor) : Except ReadFault (String × Cursor) := do
  if p.next? ≠ some '!' then throw .malformed
  let (name, q) := p.forward.span isNameChar
  if p.forward.next? = some ' ' then return ("!", p.forward)
  if q.next? ≠ some '!' then throw .malformed
  return (String.ofList ('!' :: name ++ ['!']), q.forward)

/-- A second mark comes before the end of the field. -/
def hasHandle (p : Cursor) : Bool :=
  (p.rest.takeWhile fun c => !endsField (some c)).contains '!'

/-- The tag that comes next. -/
def tag (p : Cursor) : Except ReadFault (TagText × Cursor) := do
  let q := p.forward
  let (tag, after) ←
    if q.next? = some '<' then do
      let (suffix, after) ← tagName q.forward
      if after.next? ≠ some '>' then throw .malformed
      pure (⟨none, suffix⟩, after.forward)
    else if endsWord q.next? then pure (⟨none, "!"⟩, q)
    else do
      let (handle, q) ← if hasHandle q then tagHandle p else pure ("!", q)
      let (suffix, after) ← tagName q
      pure (⟨some handle, suffix⟩, after)
  if endsField after.next? then return (tag, after) else throw .malformed

/-- The name of an anchor behind its mark, and the place after it. -/
def anchorName (p : Cursor) : Except ReadFault (String × Cursor) := do
  let (name, q) := p.forward.span isNameChar
  if name.isEmpty then throw .malformed
  if endsWord q.next? || q.next?.any "?:,]\x7d%@`".toList.contains then
    return (String.ofList name, q)
  else throw .malformed

/-- A number of a version. -/
def versionNumber (p : Cursor) : Except ReadFault (Nat × Cursor) := do
  let (digits, q) := p.span Char.isDigit
  if digits.isEmpty then throw .malformed
  return (digits.foldl (fun n c => n * 10 + (c.toNat - 0x30)) 0, q)

/-- The directive that comes next, and the place after its line. -/
def directive (p : Cursor) : Except ReadFault (Directive × Cursor) := do
  let (name, q) := p.forward.span isNameChar
  if name.isEmpty || !endsField q.next? then throw .malformed
  match String.ofList name with
  | "YAML" =>
    let (major, q) ← versionNumber q.skipSpaces
    if q.next? ≠ some '.' then throw .malformed
    let (minor, q) ← versionNumber q.forward
    if !endsField q.next? then throw .malformed
    return (.version major minor, ← q.finishLine)
  | "TAG" =>
    let (handle, q) ← tagHandle q.skipSpaces
    if q.next? ≠ some ' ' then throw .malformed
    let (beginning, q) ← tagName q.skipSpaces
    if !endsField q.next? then throw .malformed
    return (.handle handle beginning, ← q.finishLine)
  | _ => return (.other, ← (q.skip (!isBreak ·)).finishLine)

end CodeOutline.Yaml
