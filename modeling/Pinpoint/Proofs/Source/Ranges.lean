import Mathlib.Data.Prod.Lex
import Pinpoint.Diagnostic.Repairs

/-!
# The order of positions

Positions come one after another as pairs of numbers do, by line and then by column, once zeros are raised to one. A
range is reversed if its stop comes before its start in that order (`SourceRange.reversed_iff`). Ranges that count from
one and run forwards are sound; they are what ranges are made into, and what stays as it is (`between_eq_self_iff`), so
that making a range of a range changes nothing and has nothing to repair (`between_closed`).
-/

namespace Pinpoint

/-! ## Positions -/

namespace Position

/-- The line and the column in reading order. -/
def inOrder (p : Position) : ℕ ×ₗ ℕ := toLex (p.line.toNat, p.column.toNat)

/-- The line and the column in reading order, zeros raised to one. -/
def raised (p : Position) : ℕ ×ₗ ℕ := toLex (max p.line.toNat 1, max p.column.toNat 1)

end Position

theorem toNat_max_one (w : UInt64) : (max w 1).toNat = max w.toNat 1 := by
  show (if w ≤ 1 then 1 else w).toNat = _
  have hone : w ≤ 1 ↔ w.toNat ≤ 1 := UInt64.le_iff_toNat_le
  split
  · next h => rw [max_eq_right (hone.mp h)]; rfl
  · next h => rw [max_eq_left (Nat.le_of_lt (Nat.lt_of_not_le fun hle => h (hone.mpr hle)))]

/-- Raised positions are the clamped ones. -/
theorem Position.before_clamp_iff {p q : Position} : p.clamp.Before q.clamp ↔ p.raised < q.raised := by
  have hlt : ∀ v w : UInt64, max v 1 < max w 1 ↔ max v.toNat 1 < max w.toNat 1 := by
    intro v w
    rw [UInt64.lt_iff_toNat_lt, toNat_max_one, toNat_max_one]
  have heq : ∀ v w : UInt64, max v 1 = max w 1 ↔ max v.toNat 1 = max w.toNat 1 := by
    intro v w
    rw [← UInt64.toNat_inj, toNat_max_one, toNat_max_one]
  rw [raised, raised, Prod.Lex.toLex_lt_toLex]
  simp only [Before, clamp, hlt, heq]

theorem Position.inOrder_clamp (p : Position) : p.clamp.inOrder = p.raised := by
  rw [inOrder, clamp, toNat_max_one, toNat_max_one, raised]

theorem Position.one_le_clamp (p : Position) : 1 ≤ p.clamp.line ∧ 1 ≤ p.clamp.column := by
  have hmax : ∀ w : UInt64, 1 ≤ max w 1 := by
    intro w
    show 1 ≤ if w ≤ 1 then 1 else w
    grind
  exact ⟨hmax p.line, hmax p.column⟩

/-- What counts from one stays as it is. -/
theorem Position.clamp_eq_self {p : Position} (hline : 1 ≤ p.line) (hcolumn : 1 ≤ p.column) : p.clamp = p := by
  have hmax : ∀ w : UInt64, 1 ≤ w → max w 1 = w := by
    intro w hw
    show (if w ≤ 1 then 1 else w) = w
    grind
  rw [clamp, hmax _ hline, hmax _ hcolumn]

/-! ## Ranges -/

namespace SourceRange

/-- A range is reversed if it ends before it starts, zeros counted as one. -/
theorem reversed_iff {start stop : Position} : Reversed start stop ↔ stop.raised < start.raised :=
  Position.before_clamp_iff

/-- Lines and columns count from one, and the range does not end before it starts. -/
structure Sound (r : SourceRange) : Prop where
  startLine : 1 ≤ r.start.line
  startColumn : 1 ≤ r.start.column
  stopLine : 1 ≤ r.stop.line
  stopColumn : 1 ≤ r.stop.column
  forwards : r.start.line < r.stop.line ∨ r.start.line = r.stop.line ∧ r.start.column ≤ r.stop.column

/-- A range is sound whatever it is made of. -/
theorem between_sound (start stop : Position) : (between start stop).Sound := by
  obtain ⟨hline, hcolumn⟩ := start.one_le_clamp
  unfold between
  split
  · exact ⟨hline, hcolumn, hline, hcolumn, .inr ⟨rfl, UInt64.le_refl _⟩⟩
  · next hreversed =>
    obtain ⟨hline', hcolumn'⟩ := stop.one_le_clamp
    refine ⟨hline, hcolumn, hline', hcolumn', ?_⟩
    unfold Reversed Position.Before at hreversed
    grind

section Sound

variable {r : SourceRange}

theorem Sound.clamp_start (h : r.Sound) : r.start.clamp = r.start := Position.clamp_eq_self h.startLine h.startColumn

theorem Sound.clamp_stop (h : r.Sound) : r.stop.clamp = r.stop := Position.clamp_eq_self h.stopLine h.stopColumn

/-- A sound range does not collapse. -/
theorem Sound.not_reversed (h : r.Sound) : ¬Reversed r.start r.stop := by
  have hforwards := h.forwards
  rw [Reversed, h.clamp_start, h.clamp_stop, Position.Before]
  grind

/-- There is nothing to repair in a sound range. -/
theorem Sound.repairs_eq_nil (h : r.Sound) : repairs r.start r.stop = [] := if_neg h.not_reversed

/-- The sound ranges are those that stay as they are. -/
theorem between_eq_self_iff : between r.start r.stop = r ↔ r.Sound := by
  constructor
  · intro h
    rw [← h]
    exact between_sound r.start r.stop
  · intro h
    rw [between, if_neg h.not_reversed, h.clamp_start, h.clamp_stop]

end Sound

/-- The stop of a range is the later one of both positions. -/
theorem inOrder_stop_between (start stop : Position) :
    (between start stop).stop.inOrder = max start.raised stop.raised := by
  by_cases h : Reversed start stop
  · rw [between, if_pos h, Position.inOrder_clamp, max_eq_left (reversed_iff.mp h).le]
  · rw [between, if_neg h, Position.inOrder_clamp, max_eq_right (not_lt.mp fun hlt => h (reversed_iff.mpr hlt))]

/-- A repair of a range is a warning, and there is one exactly for a reversed range. -/
theorem warns_iff {start stop : Position} :
    (∃ e ∈ repairs start stop, e.importance = .warn) ↔ stop.raised < start.raised := by
  rw [← reversed_iff]
  by_cases h : Reversed start stop
  · rw [repairs, if_pos h]
    exact iff_of_true ⟨_, List.mem_singleton_self _, rfl⟩ h
  · rw [repairs, if_neg h]
    exact iff_of_false (fun ⟨_, he, _⟩ => List.not_mem_nil he) h

/-- **Making a range is a closure.** A range starts at its first position, zeros raised to one, and stops at the later
one of both positions; it keeps what it is given exactly if that is sound. Making it again from its own positions
changes nothing and leaves no event, and making it leaves a warning exactly if the second position comes before the
first one, zeros raised to one. -/
theorem between_closed (start stop : Position) :
    ((between start stop).start.inOrder = start.raised ∧
        (between start stop).stop.inOrder = max start.raised stop.raised) ∧
      (between start stop = ⟨start, stop⟩ ↔ Sound ⟨start, stop⟩) ∧
      (between (between start stop).start (between start stop).stop = between start stop ∧
        repairs (between start stop).start (between start stop).stop = []) ∧
      ((∃ e ∈ repairs start stop, e.importance = .warn) ↔ stop.raised < start.raised) := by
  have hsound := between_sound start stop
  refine ⟨⟨start.inOrder_clamp, inOrder_stop_between start stop⟩, ?_, ?_, warns_iff⟩
  · exact @between_eq_self_iff ⟨start, stop⟩
  · exact ⟨between_eq_self_iff.mpr hsound, hsound.repairs_eq_nil⟩

/-- A range that only runs backwards once its zeros are raised. -/
example : between ⟨0, 7⟩ ⟨1, 0⟩ = ⟨⟨1, 7⟩, ⟨1, 7⟩⟩ := by decide

end SourceRange

end Pinpoint
