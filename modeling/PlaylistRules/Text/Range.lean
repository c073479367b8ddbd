/-!
# Ranges of code points

Classes of characters given by closed ranges of code points.

## Main definitions

* `Text.inRanges` : membership of a character in one of the ranges.
-/

namespace PlaylistRules.Text

/-- A character has its code point in one of the closed ranges. -/
def inRanges (ranges : List (Nat × Nat)) (c : Char) : Bool :=
  ranges.any fun range => range.1 ≤ c.toNat && c.toNat ≤ range.2

end PlaylistRules.Text
