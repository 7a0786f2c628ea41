/-!
# Nesting

How deep the parts of a pattern lie inside each other. Parts side by side make one part more around them, and a part
alone does not.
-/

namespace Pinpoint.Pattern

/-- Parts side by side: how many there are, and how deep the deepest is. -/
structure Row where
  size : Nat := 0
  deepest : Nat := 0
  deriving DecidableEq, Repr, Inhabited

namespace Row

def add (r : Row) (depth : Nat) : Row := ⟨r.size + 1, max r.deepest depth⟩

def depth (r : Row) : Nat := if r.size ≤ 1 then r.deepest else r.deepest + 1

end Row

end Pinpoint.Pattern
