/-!
# Ranges of characters

A class of characters is given as ranges of code points, both ends included.
-/

namespace LayeredSchema.Text

/-- Whether a character lies in one of some ranges of code points. -/
def inRanges (ranges : List (Nat × Nat)) (c : Char) : Bool :=
  ranges.any fun (first, last) => first ≤ c.toNat && c.toNat ≤ last

end LayeredSchema.Text
