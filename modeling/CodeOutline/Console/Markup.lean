import CodeOutline.Text.Blank
import CodeOutline.Text.Lines
import CodeOutline.Text.Width

/-!
# Marked-up text

Text for a console is marked up with tags in square brackets: a tag opens a style, and a tag with a
slash closes it again. A bracket that no small letter, `#`, `/` or `@` follows opens no tag, nor does
one behind a backslash. On a plain console the tags are left out.
-/

namespace CodeOutline.Console

open CodeOutline.Text

/-- Why tags do not fit each other. Positions are those of the tags in the marked-up text. -/
inductive MarkupFault where
  /-- A tag closes a style that is not open. -/
  | notOpen (tag : String) (position : Nat)
  /-- A tag closes the innermost style where none is open. -/
  | nothingOpen (position : Nat)
  deriving Repr, DecidableEq

def MarkupFault.message : MarkupFault → String
  | notOpen tag position =>
    s!"closing tag '[{tag}]' at position {position} doesn't match any open tag"
  | nothingOpen position => s!"closing tag '[/]' at position {position} has nothing to close"

/-- A part of a marked-up text. -/
inductive Part where
  | plain (cs : List Char)
  /-- A tag and its position in the text. -/
  | tag (name : List Char) (position : Nat)
  deriving Repr, DecidableEq

/-- A character that a tag may start with. -/
def startsTag (c : Char) : Bool :=
  c.isLower || c = '#' || c = '/' || c = '@'

/-- The inside of the tag whose opening bracket comes before the text, and the length of the inside.
-/
def tag? (cs : List Char) : Option (List Char) :=
  match cs with
  | [] => none
  | c :: rest =>
    let more := rest.takeWhile fun d => d ≠ ']' && d ≠ '['
    if startsTag c && rest[more.length]? = some ']' then some (c :: more) else none

/-- Puts a character before the first part. -/
def pushChar (c : Char) : List Part → List Part
  | .plain cs :: rest => .plain (c :: cs) :: rest
  | parts => .plain [c] :: parts

/-- The parts of a text, the first of which is at the given position. Of two backslashes before a tag
one is shown; a single one makes the tag plain text. -/
def partsFrom (position : Nat) : Nat → List Char → List Part
  | 0, _ => []
  | _, [] => []
  | fuel + 1, c :: rest =>
    let slashes := ((c :: rest).takeWhile (· == '\\')).length
    match (c :: rest).drop slashes with
    | '[' :: inside =>
      match tag? inside with
      | some name =>
        let length := slashes + name.length + 2
        let after := partsFrom (position + length) fuel ((c :: rest).drop length)
        let shown := List.replicate (slashes / 2) '\\'
        let here :=
          if slashes % 2 = 1 then Part.plain ('[' :: name ++ [']']) else .tag name (position + slashes)
        .plain [] :: .plain shown :: here :: after
      | none => pushChar c (partsFrom (position + 1) fuel rest)
    | _ => pushChar c (partsFrom (position + 1) fuel rest)

/-- Plain text, where a backslash before a bracket is not shown. -/
def unescaped : List Char → List Char
  | '\\' :: '[' :: rest => '[' :: unescaped rest
  | c :: rest => c :: unescaped rest
  | [] => []

/-- What styles are called, whatever blanks and letter case they are written with. -/
def styleName (cs : List Char) : List Char :=
  (trimChars cs).map Char.toLower

/-- The text of parts, given the styles that are open, the innermost first. -/
def textOfParts (styles : List (List Char)) : List Part → Except MarkupFault (List Char)
  | [] => .ok []
  | .plain cs :: rest => do return unescaped cs ++ (← textOfParts styles rest)
  | .tag ('/' :: inside) position :: rest =>
    let name := styleName (inside.takeWhile (· ≠ '='))
    if name.isEmpty then
      match styles with
      | [] => .error (.nothingOpen position)
      | _ :: outer => textOfParts outer rest
    else if styles.contains name then textOfParts (styles.erase name) rest
    else .error (.notOpen (String.ofList ('/' :: inside)) position)
  | .tag inside _ :: rest => textOfParts (styleName (inside.takeWhile (· ≠ '=')) :: styles) rest

/-- A character that moves the cursor and is not shown. -/
def isControl (c : Char) : Bool :=
  ['\x07', '\x08', '\x0b', '\x0c', '\r'].contains c

/-- The text of a marked-up text, without tags. -/
def plainText (markup : String) : Except MarkupFault (List Char) := do
  let cs ← textOfParts [] (partsFrom 0 (markup.length + 1) markup.toList)
  return cs.filter (!isControl ·)

/-! ## Lines -/

/-- The distance between tab stops. -/
def tabStop : Nat := 8

/-- The line with its tabs filled up to the next stop, given the column reached. -/
def expandTabs (column : Nat) : List Char → List Char
  | [] => []
  | '\t' :: rest =>
    let next := (column / tabStop + 1) * tabStop
    List.replicate (next - column) ' ' ++ expandTabs next rest
  | c :: rest => c :: expandTabs (column + charWidth c) rest

/-- The lines that a marked-up text is shown as. -/
def shownLines (markup : String) : Except MarkupFault (List (List Char)) := do
  return (piecesFrom '\n' [] (← plainText markup)).map (expandTabs 0)

/-- Lines as output, each with its end. -/
def output (ls : List (List Char)) : String :=
  String.join (ls.map fun l => String.ofList l ++ "\n")

/-- A marked-up text as output. -/
def printed (markup : String) : Except MarkupFault String := do
  return output (← shownLines markup)

end CodeOutline.Console
