/-!
# Ranges of characters

Properties of characters are given as tables of ranges of code points.
-/

namespace PgToolkit.Text

/-- Whether the code point of a character is in one of the inclusive ranges. -/
def inRanges (ranges : List (Nat × Nat)) (c : Char) : Bool :=
  ranges.any fun (low, high) => low ≤ c.toNat && c.toNat ≤ high

end PgToolkit.Text
