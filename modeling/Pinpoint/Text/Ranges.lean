/-!
# Ranges of characters

A property of characters as the ranges of code points that have it.
-/

namespace Pinpoint.Text

/-- Closed ranges of code points, ascending and apart. -/
abbrev Ranges := List (Nat × Nat)

/-- The code point of the character lies in one of the ranges. -/
def Ranges.contains (ranges : Ranges) (c : Char) : Bool := ranges.any fun r => r.1 ≤ c.toNat && c.toNat ≤ r.2

end Pinpoint.Text
