import Pinpoint.Proofs.Json.Streams
import Pinpoint.Proofs.Message.Records

/-!
# Streams without faults

A text of the grammar is judged by its values alone: `ofValues` gives their messages, or the place and the mismatch of
the first one that is no record, and the result of the text is that, but for the offset of the error (`blame_ofText`).
-/

namespace Pinpoint

open Json (Value Stream SpellsStream)

/-- The record at fault and what is wrong with it, wherever it starts. -/
def ParseError.blame (e : ParseError) : Option Nat × String := (e.record?, e.source)

namespace Message

/-- The messages of values, or how many of them come before the first one that is no record, and why it is none. -/
def ofValues : List Value → Except (Nat × Mismatch) (List Message)
  | [] => .ok []
  | v :: vs =>
    match ofRecord v with
    | .error m => .error (0, m)
    | .ok x =>
      match ofValues vs with
      | .error (i, m) => .error (i + 1, m)
      | .ok ms => .ok (x.toList ++ ms)

theorem ofValues_cons_error {v : Value} {m : Mismatch} (h : ofRecord v = .error m) (vs : List Value) :
    ofValues (v :: vs) = .error (0, m) := by
  rw [ofValues, h]

theorem ofValues_cons_ok {v : Value} {x : Option Message} (h : ofRecord v = .ok x) (vs : List Value) :
    ofValues (v :: vs) =
      match ofValues vs with
      | .error (i, m) => .error (i + 1, m)
      | .ok ms => .ok (x.toList ++ ms) := by
  rw [ofValues, h]

/-- What values come to: messages, or the record that is none, counted from one, and what is wrong with it. -/
def told (vs : List Value) : Except (Option Nat × String) (List Message) :=
  (ofValues vs).mapError fun (i, m) => (some (i + 1), m.text)

/-- Records are counted from one, after those that come before the stream. -/
theorem blame_ofRecords {s : Stream} {vs : List Value} (h : s.values? = some vs) (k : Nat) :
    ((ofRecords k s).result.map Prod.fst).mapError ParseError.blame =
      (ofValues vs).mapError fun (i, m) => (some (k + i + 1), m.text) := by
  induction s generalizing k vs with
  | finished stop => cases h; rfl
  | broken start fault => cases h
  | value start v rest ih =>
    obtain ⟨us, hus, rfl⟩ := Stream.values?_value.mp h
    rw [result_ofRecords_value, ofValues]
    cases ofRecord v with
    | error m => rfl
    | ok x =>
      have hrest := ih hus (k + 1)
      cases hrecords : (ofRecords (k + 1) rest).result with
      | error e =>
        rw [hrecords] at hrest
        cases hvalues : ofValues us with
        | ok ms => rw [hvalues] at hrest; cases hrest
        | error p =>
          rw [hvalues] at hrest
          have hblame : e.blame = (some (k + 1 + p.1 + 1), p.2.text) := Except.error.inj hrest
          show Except.error e.blame = Except.error (some (k + (p.1 + 1) + 1), p.2.text)
          rw [hblame, Nat.add_right_comm k 1 p.1, Nat.add_assoc k p.1 1]
      | ok p =>
        rw [hrecords] at hrest
        cases hvalues : ofValues us with
        | error q => rw [hvalues] at hrest; cases hrest
        | ok ms =>
          rw [hvalues] at hrest
          have hms : p.1 = ms := Except.ok.inj hrest
          subst hms
          rfl

/-- **The result of a text of the grammar is that of its values.** -/
theorem blame_ofText {s : String} {vs : List Value} (h : SpellsStream s.toList vs) :
    (ofText s).result.mapError ParseError.blame = told vs := by
  rw [result_ofText, blame_ofRecords (Stream.values?_ofText_iff.mpr h)]
  simp only [Nat.zero_add, told]

section Text

variable {s : String} {vs : List Value} (h : SpellsStream s.toList vs)

include h

theorem ofText_eq_ok_iff_ofValues {ms : List Message} : (ofText s).result = .ok ms ↔ ofValues vs = .ok ms := by
  have hblame := blame_ofText h
  rw [told] at hblame
  cases htext : (ofText s).result with
  | error e =>
    rw [htext] at hblame
    cases hvalues : ofValues vs with
    | error p => exact ⟨nofun, nofun⟩
    | ok ms' => rw [hvalues] at hblame; cases hblame
  | ok ms' =>
    rw [htext] at hblame
    cases hvalues : ofValues vs with
    | error p => rw [hvalues] at hblame; cases hblame
    | ok ms'' =>
      rw [hvalues] at hblame
      cases hblame
      rw [Except.ok.injEq, Except.ok.injEq]

/-- A text is refused exactly if its values are, for the record of that place and the mismatch there. -/
theorem ofText_eq_error_iff_ofValues {r : Option Nat} {source : String} :
    (∃ e, (ofText s).result = .error e ∧ e.record? = r ∧ e.source = source) ↔
      ∃ i m, ofValues vs = .error (i, m) ∧ r = some (i + 1) ∧ source = m.text := by
  have hblame := blame_ofText h
  rw [told] at hblame
  cases htext : (ofText s).result with
  | error e =>
    rw [htext] at hblame
    cases hvalues : ofValues vs with
    | error p =>
      rw [hvalues] at hblame
      obtain ⟨hrecord, hsource⟩ := Prod.mk.inj (Except.error.inj hblame)
      constructor
      · rintro ⟨_, he, rfl, rfl⟩
        cases he
        exact ⟨p.1, p.2, rfl, hrecord, hsource⟩
      · rintro ⟨i, m, hp, rfl, rfl⟩
        cases hp
        exact ⟨e, rfl, hrecord, hsource⟩
    | ok ms => rw [hvalues] at hblame; cases hblame
  | ok ms =>
    rw [htext] at hblame
    cases hvalues : ofValues vs with
    | error p => rw [hvalues] at hblame; cases hblame
    | ok ms' => exact ⟨nofun, nofun⟩

end Text

end Message

end Pinpoint
