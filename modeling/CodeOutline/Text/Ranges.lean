/-!
# Tables of code point ranges

A character class above ASCII is a list of closed ranges of code points.
-/

namespace CodeOutline.Text

/-- Membership in one of the closed ranges. -/
def inRanges (table : List (Nat × Nat)) (n : Nat) : Bool :=
  table.any fun r => r.1 ≤ n && n ≤ r.2

end CodeOutline.Text
