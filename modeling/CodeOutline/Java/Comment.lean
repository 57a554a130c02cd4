import CodeOutline.Text.Blank
import CodeOutline.Text.Lines

/-!
# Comment texts

What a comment says without its delimiters and without the decoration of its lines.
-/

namespace CodeOutline.Java

open CodeOutline.Text

/-- The text without a given beginning, if it has it. -/
def dropStart (start cs : List Char) : List Char :=
  if start.isPrefixOf cs then cs.drop start.length else cs

/-- The text without a given ending, if it has it. -/
def dropEnd (ending cs : List Char) : List Char :=
  if ending.isSuffixOf cs then cs.take (cs.length - ending.length) else cs

/-- A line of a block comment without the blanks at its ends and without one leading star. -/
def undecoratedLine (line : List Char) : List Char :=
  match trimChars line with
  | '*' :: rest => trimChars rest
  | cs => cs

/-- The inside of a block comment. -/
def blockInside (raw : List Char) : List Char :=
  let opened :=
    if ['/', '*', '*'].isPrefixOf raw then raw.drop 3 else dropStart ['/', '*'] raw
  dropEnd ['*', '/'] opened

/-- The text of a comment: of a line comment what follows its slashes, of a block comment its lines
that are not blank, each without its decoration. -/
def commentText (raw : String) : String :=
  match raw.toList with
  | '/' :: '/' :: rest => String.ofList (trimChars rest)
  | cs =>
    let kept := ((lines (blockInside cs)).map undecoratedLine).filter (!·.isEmpty)
    String.ofList (trimChars (['\n'].intercalate kept))

end CodeOutline.Java
