import Pinpoint.Proofs.Json.Streams

/-!
# One value at a time

A stream can be read value by value: `Stream.next` feeds the machine until one value has ended and leaves the rest of
the text unread. A stream is its first value, if there is one, and then the stream of what that left (`run_eq_next`).
Whatever the value is, reading it takes some of the text (`exists_cut_of_next`).
-/

namespace Pinpoint.Json

open Machine

/-- What the next value of a text is. -/
inductive Next where
  /-- There is none. -/
  | none
  /-- The text goes on as no value does. -/
  | fault (f : Fault)
  /-- The value `v`, which leaves the text `left` from `here` on. -/
  | value (v : Value) (here : Place) (left : List Char)

namespace Stream

/-- The value that ends next, from a machine that has read its beginning. -/
def next (m : Machine) (here : Place) : List Char → Next
  | [] =>
    match m.finish with
    | (some v, _) => .value v here []
    | (none, some cause) => .fault (cause.atEnd here)
    | (none, none) => .none
  | c :: cs =>
    match m.feed c with
    | ⟨some v, _⟩ => .value v here (c :: cs)
    | ⟨none, .next m⟩ => next m (here.after c) cs
    | ⟨none, .value v⟩ => .value v (here.after c) cs
    | ⟨none, .fail t⟩ => .fault (t.at here c)

variable {m : Machine} {w : List Char}

/-- **A stream is its first value and the stream after that.** -/
theorem run_eq_next (h : Holds m w) (start : Nat) (here : Place) (cs : List Char) :
    run m start here cs =
      match next m here cs with
      | .none => .finished start
      | .fault f => .broken start f
      | .value v here left => .value start v (run idle here.offset here left) := by
  induction cs generalizing m w here with
  | nil =>
    have hfinish := h.finish
    simp only [run, atEnd, next]
    generalize m.finish = last at hfinish
    cases hfinish <;> rfl
  | cons c cs ih =>
    have hfeed := h.feed c
    simp only [next]
    cases hm : m.feed c with
    | mk ended s =>
      rw [hm] at hfeed
      cases hfeed with
      | after _ _ _ _ =>
        -- The character after the value is read once more, for what comes next.
        rw [run_after hm, ← run_idle_cons]
      | inside hs =>
        rw [run_inside hm]
        cases s with
        | next m' => exact ih hs _
        | value v => rfl
        | fail t => rfl

/-- The text of a value is not empty. -/
theorem ne_nil_of_complete {v : Value} (h : Complete w v) : w ≠ [] := by
  cases h with
  | @value b x _ hb hx =>
    intro hnil
    have hnext : v.isLoose = true → ∀ c ∈ ([] : List Char).head?, isDelimiter c = true := fun _ _ hc => by cases hc
    have hstream : SpellsStream (b ++ x ++ []) [v] := .value hb hx hnext (.done .nil)
    rw [hnil, List.append_nil] at hstream
    exact List.cons_ne_nil _ _ (eq_nil_of_spells_nil hstream)

/-- What is left after a value is the text behind the value. -/
theorem exists_cut_of_next (h : Holds m w) {here there : Place} {cs left : List Char} {v : Value}
    (hnext : next m here cs = .value v there left) :
    ∃ p, cs = p ++ left ∧ there = here.afterAll p ∧ Complete (w ++ p) v := by
  induction cs generalizing m w here with
  | nil =>
    have hfinish := h.finish
    simp only [next] at hnext
    generalize m.finish = last at hfinish hnext
    cases hfinish with
    | between _ _ => cases hnext
    | value _ hw =>
      cases hnext
      exact ⟨[], rfl, rfl, by rwa [List.append_nil]⟩
    | missing cause => cases hnext
  | cons c cs ih =>
    have hfeed := h.feed c
    simp only [next] at hnext
    generalize m.feed c = fed at hfeed hnext
    cases hfeed with
    | after _ _ hw _ =>
      cases hnext
      exact ⟨[], rfl, rfl, by rwa [List.append_nil]⟩
    | @inside s hs =>
      cases s with
      | next m' =>
        obtain ⟨p, rfl, rfl, hw⟩ := ih hs hnext
        exact ⟨c :: p, rfl, rfl, by rwa [List.append_assoc] at hw⟩
      | value u =>
        cases hnext
        exact ⟨[c], rfl, rfl, hs.2⟩
      | fail t => cases hnext

/-- **Every value takes some text**: what is left is shorter, and begins at a later byte. -/
theorem next_consumes {here there : Place} {cs left : List Char} {v : Value}
    (h : next idle here cs = .value v there left) :
    ∃ p, cs = p ++ left ∧ p ≠ [] ∧ there.offset = here.offset + Text.bytes p ∧ here.offset < there.offset := by
  obtain ⟨p, hcut, rfl, hcomplete⟩ := exists_cut_of_next holds_idle h
  have hnil : p ≠ [] := ne_nil_of_complete hcomplete
  have hpos : 0 < Text.bytes p := Nat.pos_of_ne_zero fun hzero => hnil (Text.eq_nil_of_bytes hzero)
  have hoffset := here.offset_afterAll p
  exact ⟨p, hcut, hnil, hoffset, by omega⟩

end Stream

end Pinpoint.Json
