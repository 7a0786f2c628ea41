import Pinpoint.Proofs.Json.Reader
import Pinpoint.Proofs.Message.Journal

/-!
# Turns of the loop over the records

Reading a text is a loop: a turn reads one value and either ends the loop or goes on to the next turn with the text that
the value leaves (`Loop.turn`). What the loop comes to in the end is what the text comes to (`Loop.Run.eq_outcome`). It
comes to an end because each turn that goes on has taken some text (`Loop.Stands.next`), and so it has at most as many
turns as the text has bytes, and one more (`ofText_progresses`).
-/

namespace Pinpoint.Message

open Json (Value Stream Place)
open Json.Machine (idle)

/-! ## Single records -/

/-- A record that is at fault ends the stream without an event. -/
theorem ofRecords_of_error {k start : Nat} {v : Value} {rest : Stream} {m : Mismatch} (h : ofRecord v = .error m) :
    ofRecords k (.value start v rest) = ⟨[], .error (.malformed (k + 1) start (.mismatch m))⟩ := by
  have hevents := events_ofRecords k (.value start v rest)
  have hresult := result_ofRecords_value k start v rest
  rw [leading, h] at hevents
  rw [h] at hresult
  generalize ofRecords k (.value start v rest) = read at hevents hresult ⊢
  cases read
  cases hevents
  cases hresult
  rfl

/-- A record leaves its events and gives its message before what follows it. -/
theorem ofRecords_of_ok {k start : Nat} {v : Value} {rest : Stream} {x : Option Message} (h : ofRecord v = .ok x) :
    ofRecords k (.value start v rest) =
      ⟨Record.events (k + 1) v ++ (ofRecords (k + 1) rest).events,
        (ofRecords (k + 1) rest).result.map fun (ms, n) => (x.toList ++ ms, n)⟩ := by
  have hevents := events_ofRecords k (.value start v rest)
  have hresult := result_ofRecords_value k start v rest
  rw [leading_of_ok h, journal_cons, ← events_ofRecords] at hevents
  rw [h] at hresult
  generalize ofRecords k (.value start v rest) = read at hevents hresult ⊢
  cases read
  simp only at hevents hresult
  rw [hevents, hresult]

/-! ## The loop -/

/-- The loop over the records of a text, at the start of a turn. -/
structure Loop where
  /-- The messages of the records that were read. -/
  messages : List Message
  /-- The events on the way. -/
  events : List Event
  /-- How many records were read. -/
  records : Nat
  /-- How far the text was read. -/
  here : Place
  /-- What is left of the text. -/
  left : List Char

/-- What a turn comes to. -/
inductive Loop.Turn where
  /-- Another turn. -/
  | next (l : Loop)
  /-- The end of the loop. -/
  | ended (outcome : Logged (Except ParseError (List Message)))

namespace Loop

/-- The loop before its first turn. -/
def of (s : String) : Loop := ⟨[], [], 0, .origin, s.toList⟩

/-- The byte at which the turn starts. -/
def offset (l : Loop) : Nat := l.here.offset

/-- One turn. -/
def turn (l : Loop) : Turn :=
  match Stream.next idle l.here l.left with
  | .none => .ended ⟨l.events ++ [.streamRead l.messages.length l.records], .ok l.messages⟩
  | .fault f => .ended ⟨l.events, .error (.malformed (l.records + 1) l.offset (.fault f))⟩
  | .value v here left =>
    match ofRecord v with
    | .error m => .ended ⟨l.events, .error (.malformed (l.records + 1) l.offset (.mismatch m))⟩
    | .ok x => .next ⟨l.messages ++ x.toList, l.events ++ Record.events (l.records + 1) v, l.records + 1, here, left⟩

/-- The turns of a loop up to its end, and what it comes to. -/
inductive Run : Loop → List Loop → Logged (Except ParseError (List Message)) → Prop
  | ended {l : Loop} {r : Logged (Except ParseError (List Message))} : l.turn = .ended r → Run l [l] r
  | next {l l' : Loop} {ls : List Loop} {r : Logged (Except ParseError (List Message))} : l.turn = .next l' →
      Run l' ls r → Run l (l :: ls) r

variable {l l' : Loop} {ls ls' : List Loop} {r r' : Logged (Except ParseError (List Message))} {s : String}

/-- The loop goes on after a record. -/
theorem turn_eq_next_iff : l.turn = .next l' ↔
    ∃ v here left x, Stream.next idle l.here l.left = .value v here left ∧ ofRecord v = .ok x ∧
      l' = ⟨l.messages ++ x.toList, l.events ++ Record.events (l.records + 1) v, l.records + 1, here, left⟩ := by
  constructor
  · intro h
    unfold turn at h
    split at h
    · cases h
    · cases h
    · next v here left hnext =>
      split at h
      · cases h
      · next x hx =>
        cases h
        exact ⟨v, here, left, x, hnext, hx, rfl⟩
  · rintro ⟨v, here, left, x, hnext, hx, rfl⟩
    simp only [turn, hnext, hx]

/-- A turn that goes on leaves less of the text. -/
theorem length_left_lt (h : l.turn = .next l') : l'.left.length < l.left.length := by
  obtain ⟨v, here, left, x, hnext, -, rfl⟩ := turn_eq_next_iff.mp h
  obtain ⟨p, hcut, hnil, -⟩ := Stream.next_consumes hnext
  rw [hcut, List.length_append]
  exact Nat.lt_add_of_pos_left (List.length_pos_iff.mpr hnil)

/-- The loop comes to an end. -/
theorem exists_run (l : Loop) : ∃ ls r, Run l ls r := by
  -- By the length of what is left, which is all that makes the loop end.
  induction hn : l.left.length using Nat.strong_induction_on generalizing l with
  | _ n ih =>
    cases hturn : l.turn with
    | ended r => exact ⟨_, r, .ended hturn⟩
    | next l' =>
      subst hn
      obtain ⟨ls, r, hrun⟩ := ih _ (length_left_lt hturn) l' rfl
      exact ⟨_, r, .next hturn hrun⟩

/-! ## What the loop comes to -/

/-- The stream of what is left. -/
def rest (l : Loop) : Stream := Stream.run idle l.offset l.here l.left

/-- What was read, and then what is still to be read. -/
def outcome (l : Loop) : Logged (Except ParseError (List Message)) :=
  match ofRecords l.records l.rest with
  | ⟨events, .error e⟩ => ⟨l.events ++ events, .error e⟩
  | ⟨events, .ok (ms, n)⟩ => ⟨l.events ++ events ++ [.streamRead (l.messages ++ ms).length n], .ok (l.messages ++ ms)⟩

theorem outcome_of (s : String) : (of s).outcome = ofText s := by
  have hrecords : (of s).records = 0 := rfl
  have hrest : (of s).rest = Stream.ofText s := rfl
  rw [outcome, hrecords, hrest, ofText, ofStream]
  generalize ofRecords 0 (Stream.ofText s) = read
  obtain ⟨events, e | ⟨ms, n⟩⟩ := read <;> rfl

theorem outcome_of_ended (h : l.turn = .ended r) : l.outcome = r := by
  unfold turn at h
  rw [outcome, rest, Stream.run_eq_next Json.holds_idle]
  cases hnext : Stream.next idle l.here l.left with
  | none =>
    rw [hnext] at h
    cases h
    simp [ofRecords]
  | fault f =>
    rw [hnext] at h
    cases h
    simp [ofRecords]
  | value v here left =>
    rw [hnext] at h
    cases hv : ofRecord v with
    | error m =>
      simp only [hv] at h
      cases h
      simp [ofRecords_of_error hv]
    | ok x =>
      simp only [hv] at h
      cases h

/-- A turn does not change what the loop comes to. -/
theorem outcome_of_next (h : l.turn = .next l') : l'.outcome = l.outcome := by
  obtain ⟨v, here, left, x, hnext, hx, rfl⟩ := turn_eq_next_iff.mp h
  rw [outcome, outcome, rest, rest, Stream.run_eq_next Json.holds_idle l.offset, hnext]
  simp only [offset, ofRecords_of_ok hx]
  generalize ofRecords (l.records + 1) (Stream.run idle here.offset here left) = read
  obtain ⟨events, e | ⟨ms, n⟩⟩ := read <;> simp [Except.map]

/-- **The loop comes to what is still to be read.** -/
theorem Run.eq_outcome (h : Run l ls r) : r = l.outcome := by
  induction h with
  | ended h => exact (outcome_of_ended h).symm
  | next h _ ih => exact ih.trans (outcome_of_next h)

/-- It does so in one way. -/
theorem Run.unique (h : Run l ls r) (h' : Run l ls' r') : ls' = ls ∧ r' = r := by
  refine ⟨?_, h'.eq_outcome.trans h.eq_outcome.symm⟩
  induction h generalizing ls' with
  | ended h =>
    cases h' with
    | ended _ => rfl
    | next h' _ => rw [h] at h'; cases h'
  | next h _ ih =>
    cases h' with
    | ended h' => rw [h] at h'; cases h'
    | next h' hrun =>
      rw [h] at h'
      cases h'
      rw [ih hrun]

/-! ## Errors -/

/-- The turn meets an error: no JSON, or a value that is no record. -/
inductive Fails (l : Loop) : Prop
  | fault {f : Json.Fault} : Stream.next idle l.here l.left = .fault f → Fails l
  | mismatch {v : Value} {here : Place} {left : List Char} : Stream.next idle l.here l.left = .value v here left →
      ¬Record.Fits v → Fails l

/-- A turn that meets an error ends the loop with it. -/
theorem Fails.turn_eq (h : l.Fails) :
    ∃ flaw, l.turn = .ended ⟨l.events, .error (.malformed (l.records + 1) l.offset flaw)⟩ := by
  cases h with
  | @fault f hnext =>
    refine ⟨.fault f, ?_⟩
    simp only [turn, hnext]
  | @mismatch v here left hnext hfits =>
    cases hv : ofRecord v with
    | ok x => exact absurd (ofRecord_isOk_iff.mp ⟨x, hv⟩) hfits
    | error m =>
      refine ⟨.mismatch m, ?_⟩
      simp only [turn, hnext, hv]

/-- So it is the last turn. -/
theorem Run.last_of_fails (h : Run l ls r) {k : Loop} (hk : k ∈ ls) (hfails : k.Fails) :
    ls.getLast? = some k ∧ ∃ flaw, r.result = .error (.malformed (k.records + 1) k.offset flaw) := by
  obtain ⟨flaw, hturn⟩ := hfails.turn_eq
  induction h with
  | ended h =>
    obtain rfl := List.mem_singleton.mp hk
    rw [h] at hturn
    cases hturn
    exact ⟨rfl, flaw, rfl⟩
  | next h _ ih =>
    rcases List.mem_cons.mp hk with rfl | hk
    · rw [h] at hturn
      cases hturn
    · obtain ⟨hlast, herror⟩ := ih hk
      refine ⟨?_, herror⟩
      rw [List.getLast?_cons, hlast]
      rfl

/-! ## Progress -/

/-- The turn stands in the text at its offset: what is left is the text from there on. -/
def Stands (s : String) (l : Loop) : Prop := ∃ before, s = before ++ .ofList l.left ∧ before.utf8ByteSize = l.offset

/-- The first turn stands at the beginning. -/
theorem stands_of (s : String) : (of s).Stands s :=
  ⟨"", by rw [of, String.ofList_toList, String.empty_append], rfl⟩

theorem Stands.offset_le (h : l.Stands s) : l.offset ≤ s.utf8ByteSize := by
  obtain ⟨before, rfl, hoffset⟩ := h
  rw [String.utf8ByteSize_append, hoffset]
  exact Nat.le_add_right _ _

/-- **A turn makes progress**: the next one stands further on in the text. -/
theorem Stands.next (h : l.Stands s) (hturn : l.turn = .next l') : l'.Stands s ∧ l.offset < l'.offset := by
  obtain ⟨before, rfl, hoffset⟩ := h
  obtain ⟨v, here, left, x, hnext, -, rfl⟩ := turn_eq_next_iff.mp hturn
  obtain ⟨p, hcut, -, hhere, hlt⟩ := Stream.next_consumes hnext
  refine ⟨⟨before ++ .ofList p, ?_, ?_⟩, hlt⟩
  · rw [hcut, String.ofList_append, String.append_assoc]
  · rw [String.utf8ByteSize_append, Text.utf8ByteSize_ofList, hoffset]
    exact hhere.symm

/-- All turns stand in the text, each further on than the one before it. -/
theorem Run.progress (h : Run l ls r) (hstands : l.Stands s) :
    (∀ k ∈ ls, k.Stands s ∧ l.offset ≤ k.offset) ∧ (ls.map offset).Pairwise (· < ·) := by
  -- No later turn starts before the next one, so that it starts after the first.
  induction h with
  | ended _ => exact ⟨List.forall_mem_singleton.mpr ⟨hstands, Nat.le_refl _⟩, List.pairwise_singleton _ _⟩
  | next hturn _ ih =>
    obtain ⟨hnext, hlt⟩ := hstands.next hturn
    obtain ⟨hlater, hincreasing⟩ := ih hnext
    refine ⟨List.forall_mem_cons.mpr ⟨⟨hstands, Nat.le_refl _⟩, fun k hk => ?_⟩, ?_⟩
    · exact ⟨(hlater k hk).1, Nat.le_trans (Nat.le_of_lt hlt) (hlater k hk).2⟩
    · rw [List.map_cons, List.pairwise_cons]
      refine ⟨fun o ho => ?_, hincreasing⟩
      obtain ⟨k, hk, rfl⟩ := List.mem_map.mp ho
      exact Nat.lt_of_lt_of_le hlt (hlater k hk).2

/-- The turns start where the values of the stream do. -/
theorem Run.starts (h : Run l ls r) : ls.map offset <+: l.rest.starts := by
  induction h with
  | @ended l r _ =>
    have hstart : l.rest.start = l.offset := Stream.start_run _ _ _ _
    have hfirst := l.rest.start_prefix_starts
    rwa [hstart] at hfirst
  | @next l l' ls r hturn _ ih =>
    obtain ⟨v, here, left, x, hnext, -, rfl⟩ := turn_eq_next_iff.mp hturn
    rw [List.map_cons, rest, Stream.run_eq_next Json.holds_idle, hnext]
    exact (List.prefix_cons_inj l.offset).mpr ih

end Loop

/-- There are not more increasing numbers than there are up to the last one. -/
theorem length_le_of_increasing {ns : List Nat} {n : Nat} (h : ns.Pairwise (· < ·)) (hn : ∀ i ∈ ns, i ≤ n) :
    ns.length ≤ n + 1 := by
  have hnodup : ns.Nodup := h.imp fun hlt => Nat.ne_of_lt hlt
  have hsubset : ns ⊆ List.range (n + 1) := fun i hi => List.mem_range.mpr (Nat.lt_succ_of_le (hn i hi))
  have hlength := (hnodup.subperm hsubset).length_le
  rwa [List.length_range] at hlength

/-- **Reading a text makes progress.** The loop over its records ends, in one way, and comes to what the text comes to.
Its turns start where the values of the stream do, from the first one on: each further on in the text than the turn
before it, whether that one made a message or skipped its record, and none behind the end of the text; what a turn reads
is the text from its offset on. A turn that meets an error is the last one, and the error is that of the text. So there
are at most as many turns as bytes, and one more. -/
theorem ofText_progresses (s : String) :
    ∃ ls, Loop.Run (.of s) ls (ofText s) ∧ (∀ ls' r, Loop.Run (.of s) ls' r → ls' = ls ∧ r = ofText s) ∧
      (ls.map Loop.offset <+: (Stream.ofText s).starts ∧ (ls.map Loop.offset).Pairwise (· < ·) ∧
        ∀ l ∈ ls, l.Stands s ∧ l.offset ≤ s.utf8ByteSize) ∧
      (∀ l ∈ ls, l.Fails → ls.getLast? = some l ∧
        ∃ flaw, (ofText s).result = .error (.malformed (l.records + 1) l.offset flaw)) ∧
      ls.length ≤ s.utf8ByteSize + 1 := by
  obtain ⟨ls, r, hrun⟩ := Loop.exists_run (.of s)
  obtain rfl : r = ofText s := hrun.eq_outcome.trans (Loop.outcome_of s)
  obtain ⟨hstands, hincreasing⟩ := hrun.progress (Loop.stands_of s)
  have hbounded : ∀ l ∈ ls, l.offset ≤ s.utf8ByteSize := fun l hl => (hstands l hl).1.offset_le
  refine ⟨ls, hrun, fun ls' r hrun' => hrun.unique hrun', ⟨hrun.starts, hincreasing, fun l hl => ?_⟩,
    fun l hl hfails => hrun.last_of_fails hl hfails, ?_⟩
  · exact ⟨(hstands l hl).1, hbounded l hl⟩
  · rw [← List.length_map Loop.offset]
    refine length_le_of_increasing hincreasing fun o ho => ?_
    obtain ⟨l, hl, rfl⟩ := List.mem_map.mp ho
    exact hbounded l hl

end Pinpoint.Message
