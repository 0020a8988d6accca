/-!
# ranges of characters

A class of characters is a table of the ranges of their code points.
-/

namespace EntityAccess.Text

/-- whether a character lies in one of the ranges, each with its first and its last code point -/
def inRanges (ranges : Array (Nat × Nat)) (c : Char) : Bool :=
  ranges.any fun (first, last) => first ≤ c.toNat && c.toNat ≤ last

end EntityAccess.Text
