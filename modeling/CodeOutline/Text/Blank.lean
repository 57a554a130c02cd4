/-!
# Blank characters

One class of white space serves every text rule of the library: trimming, splitting into words, the
namespace rule. It is Unicode's white space together with the four information separators.
-/

namespace CodeOutline.Text

/-- White space of any script. -/
def isBlank (c : Char) : Bool :=
  let n := c.toNat
  (0x09 ≤ n && n ≤ 0x0D) || (0x1C ≤ n && n ≤ 0x20) || n == 0x85 || n == 0xA0 || n == 0x1680 ||
    (0x2000 ≤ n && n ≤ 0x200A) || n == 0x2028 || n == 0x2029 || n == 0x202F || n == 0x205F ||
    n == 0x3000

/-- The text without the blanks at its ends. -/
def trimChars (cs : List Char) : List Char :=
  ((cs.dropWhile isBlank).reverse.dropWhile isBlank).reverse

/-- The text without the blanks at its ends. -/
def trim (s : String) : String :=
  String.ofList (trimChars s.toList)

/-- Nothing but blanks, or nothing at all. -/
def isBlankText (s : String) : Bool :=
  s.toList.all isBlank

/-- The text without the given character at its ends. -/
def trimOf (mark : Char) (s : String) : String :=
  String.ofList ((((s.toList.dropWhile (· == mark)).reverse).dropWhile (· == mark)).reverse)

/-- The text without the given character at its end. -/
def trimEndOf (mark : Char) (s : String) : String :=
  String.ofList ((s.toList.reverse.dropWhile (· == mark)).reverse)

/-- All characters but the blanks. -/
def withoutBlanks (s : String) : String :=
  String.ofList (s.toList.filter (!isBlank ·))

end CodeOutline.Text
