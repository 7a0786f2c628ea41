/-!
# Ranges in a source file

Lines and columns are 64-bit words counted from one. A `SourceRange` is made by `SourceRange.between`, which raises
zeros to one and lets a range that ends before it starts collapse onto its start.
-/

namespace Pinpoint

structure Position where
  line : UInt64
  column : UInt64
  deriving DecidableEq, Repr, Inhabited

namespace Position

/-- Reading order: by line, then by column. -/
def Before (a b : Position) : Prop := a.line < b.line ∨ a.line = b.line ∧ a.column < b.column

instance (a b : Position) : Decidable (a.Before b) := inferInstanceAs (Decidable (_ ∨ _))

instance : Ord Position := ⟨fun a b => (compare a.line b.line).then (compare a.column b.column)⟩

/-- Zeros count as one. -/
def clamp (p : Position) : Position := ⟨max p.line 1, max p.column 1⟩

/-- The position as ranges show it. -/
def text (p : Position) : String := p.line.toNat.repr ++ ":" ++ p.column.toNat.repr

end Position

/-- Two positions, the first not after the second when made by `SourceRange.between`. -/
structure SourceRange where
  start : Position
  stop : Position
  deriving DecidableEq, Repr, Inhabited

namespace SourceRange

instance : Ord SourceRange := ⟨fun a b => (compare a.start b.start).then (compare a.stop b.stop)⟩

/-- The stop lies before the start, zeros counted as one. -/
def Reversed (start stop : Position) : Prop := stop.clamp.Before start.clamp

instance (start stop : Position) : Decidable (Reversed start stop) :=
  inferInstanceAs (Decidable (Position.Before _ _))

/-- The range from `start` to `stop`; a reversed one collapses onto its start. -/
def between (start stop : Position) : SourceRange :=
  ⟨start.clamp, if Reversed start stop then start.clamp else stop.clamp⟩

/-- The range of what has no place. -/
def placeholder : SourceRange := between ⟨1, 1⟩ ⟨1, 1⟩

def text (r : SourceRange) : String := r.start.text ++ "-" ++ r.stop.text

end SourceRange

end Pinpoint
