/-!
# Text — ranges of characters

A class of characters is a list of ranges of code points, both ends
included.
-/

namespace MapDocument

/-- A class of characters, as ranges of code points. -/
abbrev CharRanges := List (Nat × Nat)

/-- Whether a character lies in one of the ranges. -/
def CharRanges.contains (ranges : CharRanges) (c : Char) : Bool :=
  ranges.any fun (first, last) => first ≤ c.toNat && c.toNat ≤ last

end MapDocument
