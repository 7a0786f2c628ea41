import Mathlib.Data.Set.Card
import Pinpoint.Proofs.Message.Journal
import Pinpoint.Proofs.Source.Ranges

/-!
# Repairs and their warnings

What has to be put right in a diagnostic can be counted in its value, without reading it: a level or a code that is not
as it should be, children without level or message, and reversed spans at the end of any way of links
(`Json.Value.repairs`). The log of a text has as many warnings as there are such faults in its leading diagnostics, so
nothing is put right in silence or told twice, and nothing is told of a record that is refused (`ofText_repaired`).
-/

namespace Pinpoint

open Json (Value)

/-! ## Faults -/

namespace Json.Value

open Classical in
/-- One fault if the statement holds. -/
noncomputable def fault (p : Prop) : ℕ∞ := if p then 1 else 0

/-- The ways of links from a span to the spans with the property. -/
def waysTo (P : Value → Prop) (v : Value) : Set (List Link) := {way | ∃ u, v.reached? way = some u ∧ P u}

end Json.Value

/-- The value is one of the levels with a severity of their own. -/
def Severity.IsLevel (v : Value) : Prop :=
  ∃ level ∈ ["error", "error: internal compiler error", "warning", "note", "failure-note", "help"], v = .text level

/-- The value may be a code: it is a text, or an object whose `code` is missing, null or a text. -/
def Code.Fits (v : Value) : Prop := IsText v ∨ ∃ members, v = .object members ∧ Optional IsText (members.lookup "code")

/-- The child has a message and a level. -/
def Child.IsWhole (v : Value) : Prop := Required IsText (v.field? "message" 0) ∧ Required IsText (v.field? "level" 1)

/-- The value is that of a span from `start` to `stop`, apart from its other fields. -/
structure Span.Ranges (v : Value) (start stop : Position) : Prop where
  startLine : v.field? "line_start" 1 = some (.number (.natural start.line))
  stopLine : v.field? "line_end" 2 = some (.number (.natural stop.line))
  startColumn : v.field? "column_start" 3 = some (.number (.natural start.column))
  stopColumn : v.field? "column_end" 4 = some (.number (.natural stop.column))

/-- The span ends before it starts, zeros raised to one. -/
def Span.IsReversed (v : Value) : Prop := ∃ start stop, Ranges v start stop ∧ stop.raised < start.raised

namespace Json.Value

/-- How many spans are reversed: the span itself, and those at the end of any way of links from it. -/
noncomputable def reversals (v : Value) : ℕ∞ := (v.waysTo Span.IsReversed).encard

/-- How many faults of a diagnostic are put right. -/
noncomputable def repairs (d : Value) : ℕ∞ :=
  fault (¬Required Severity.IsLevel (d.field? "level" 2)) + fault (¬Optional Code.Fits (d.field? "code" 1)) +
    ((items (d.filled? "children" 4)).map fun c => fault (¬Child.IsWhole c)).sum +
    ((items (d.filled? "spans" 3)).map reversals).sum

theorem fault_of {p : Prop} (h : p) : fault p = 1 := if_pos h

theorem fault_of_not {p : Prop} (h : ¬p) : fault p = 0 := if_neg h

/-! ## Ways -/

variable {P : Value → Prop}

/-- The ways that begin with a link are those from the span at its end. -/
theorem encard_cons_waysTo (P : Value → Prop) (v : Value) (l : Link) :
    {way ∈ v.waysTo P | way.head? = some l}.encard = ((v.linked? l).map fun w => (w.waysTo P).encard).getD 0 := by
  have himage : {way ∈ v.waysTo P | way.head? = some l} =
      List.cons l '' {way | ∃ w, v.linked? l = some w ∧ way ∈ w.waysTo P} := by
    ext way
    constructor
    · rintro ⟨⟨u, hu, hP⟩, hhead⟩
      obtain ⟨way', rfl⟩ := List.head?_eq_some_iff.mp hhead
      obtain ⟨w, hw, hu⟩ := Option.bind_eq_some_iff.mp hu
      exact ⟨way', ⟨w, hw, u, hu, hP⟩, rfl⟩
    · rintro ⟨way', ⟨w, hw, u, hu, hP⟩, rfl⟩
      exact ⟨⟨u, Option.bind_eq_some_iff.mpr ⟨w, hw, hu⟩, hP⟩, rfl⟩
  rw [himage, (List.cons_injective).encard_image]
  cases hl : v.linked? l with
  | none => simp
  | some w => simp

/-- **The ways from a span are the empty one and those that begin with one of its links.** -/
theorem encard_waysTo (P : Value → Prop) (v : Value) :
    (v.waysTo P).encard = fault (P v) + ((v.linked? .invocation).map fun w => (w.waysTo P).encard).getD 0 +
      ((v.linked? .definition).map fun w => (w.waysTo P).encard).getD 0 := by
  have hsplit : v.waysTo P = {way ∈ v.waysTo P | way = []} ∪ {way ∈ v.waysTo P | way.head? = some .invocation} ∪
      {way ∈ v.waysTo P | way.head? = some .definition} := by
    ext way
    rcases way with _ | ⟨l, way⟩
    · simp
    · cases l <;> simp
  have hempty : {way ∈ v.waysTo P | way = []}.encard = fault (P v) := by
    by_cases hP : P v
    · have hnil : {way ∈ v.waysTo P | way = []} = {[]} := by
        ext way
        simp only [Set.mem_ofPred_eq, Set.mem_singleton_iff, and_iff_right_iff_imp]
        rintro rfl
        exact ⟨v, rfl, hP⟩
      rw [hnil, Set.encard_singleton, fault_of hP]
    · have hnil : {way ∈ v.waysTo P | way = []} = ∅ := by
        ext way
        simp only [Set.mem_ofPred_eq, Set.mem_empty_iff_false, iff_false, not_and]
        rintro ⟨u, hu, hPu⟩ rfl
        cases hu
        exact hP hPu
      rw [hnil, Set.encard_empty, fault_of_not hP]
  rw [hsplit, Set.encard_union_eq, Set.encard_union_eq, hempty, encard_cons_waysTo, encard_cons_waysTo]
  · rw [Set.disjoint_left]
    rintro way ⟨-, rfl⟩ ⟨-, hhead⟩
    cases hhead
  · rw [Set.disjoint_left]
    rintro way (⟨-, rfl⟩ | ⟨-, hhead⟩) ⟨-, hhead'⟩
    · cases hhead'
    · cases hhead.symm.trans hhead'

end Json.Value

open Json.Value (fault fault_of fault_of_not reversals repairs encard_waysTo)

/-! ## What is put right -/

/-- At most one event for a fault, and one if there is the fault. -/
theorem length_eq_fault {es : List Event} {p : Prop} (hone : es.length ≤ 1) (hnil : es = [] ↔ ¬p) :
    (es.length : ℕ∞) = fault p := by
  by_cases hp : p
  · have hlength : es.length ≠ 0 := fun h => hnil.mp (List.eq_nil_of_length_eq_zero h) hp
    rw [fault_of hp, show es.length = 1 by omega]
    rfl
  · rw [fault_of_not hp, hnil.mpr hp]
    rfl

theorem Severity.isSome_ofKnownLevel?_iff {level : String} :
    (ofKnownLevel? level).isSome = true ↔ IsLevel (.text level) := by
  unfold ofKnownLevel?
  split
  case h_7 herror hice hwarning hnote hfailure hhelp =>
    simpa [IsLevel] using ⟨herror, hice, hwarning, hnote, hfailure, hhelp⟩
  all_goals simp [IsLevel]

theorem Severity.length_repairs {d : Value} {level : String} (h : d.field? "level" 2 = some (.text level)) :
    ((repairs level).length : ℕ∞) = fault (¬Required IsLevel (d.field? "level" 2)) := by
  apply length_eq_fault
  · unfold repairs
    split <;> simp
  · have hlevel : Required IsLevel (d.field? "level" 2) ↔ IsLevel (.text level) := by simp [Required, h]
    rw [not_not, hlevel, ← isSome_ofKnownLevel?_iff, repairs]
    split <;> simp [*]

/-- A code that is missing, null or fits is left as it is. -/
theorem Code.repairs_eq_nil_iff {code? : Option Value} : (ofJson code?).repairs = [] ↔ Optional Fits code? := by
  cases code? with
  | none => simp [ofJson, Code.repairs, Optional]
  | some v =>
    cases v with
    | object members =>
      cases hmember : members.lookup "code" with
      | none => simp [ofJson, Code.repairs, Optional, Fits, IsText, hmember]
      | some w => cases w <;> simp [ofJson, Code.repairs, Optional, Fits, IsText, hmember]
    | null | bool _ | number _ | text _ | list _ => simp [ofJson, Code.repairs, Optional, Fits, IsText]

theorem Code.length_repairs (code? : Option Value) :
    ((ofJson code?).repairs.length : ℕ∞) = fault (¬Optional Fits code?) := by
  apply length_eq_fault
  · cases ofJson code? <;> simp [Code.repairs]
  · rw [not_not]
    exact repairs_eq_nil_iff

/-- An optional text is there if the field is there and no null. -/
theorem required_text_iff {field : Option Value} {s? : Option String}
    (h : Member.optional Member.text field = .ok s?) : Required IsText field ↔ s?.isSome = true := by
  cases field with
  | none =>
    cases h
    simp [Required]
  | some v => cases v <;> cases h <;> simp [Required, IsText]

theorem Child.length_repairs {v : Value} {c : Child} (h : ofJson v = .ok c) :
    (c.repairs.length : ℕ∞) = fault (¬IsWhole v) := by
  have hreading := Child.ofJson_eq_ok_iff.mp h
  apply length_eq_fault
  · unfold repairs
    split <;> simp
  · rw [not_not, IsWhole, required_text_iff hreading.message, required_text_iff hreading.level, repairs, isIncomplete]
    cases c.message <;> cases c.level <;> simp

/-- The range of a span collapses if it is reversed. -/
theorem Span.length_repairs_range {v : Value} {start stop : Position} (h : Ranges v start stop) :
    ((SourceRange.repairs start stop).length : ℕ∞) = fault (IsReversed v) := by
  have hreversed : IsReversed v ↔ SourceRange.Reversed start stop := by
    rw [SourceRange.reversed_iff]
    constructor
    · rintro ⟨⟨line, column⟩, ⟨line', column'⟩, h', hlt⟩
      cases h.startLine.symm.trans h'.startLine
      cases h.startColumn.symm.trans h'.startColumn
      cases h.stopLine.symm.trans h'.stopLine
      cases h.stopColumn.symm.trans h'.stopColumn
      exact hlt
    · intro hlt
      exact ⟨start, stop, h, hlt⟩
  apply length_eq_fault
  · unfold SourceRange.repairs
    split <;> simp
  · rw [hreversed, SourceRange.repairs]
    split <;> simp [*]

/-- **Each reversed span is put right once**, wherever its links lead to it. -/
theorem Span.length_repairs {v : Value} {s : Span} (h : ofJson v = .ok s) : (s.repairs.length : ℕ∞) = v.reversals := by
  induction s using linked_induction generalizing v with
  | _ s ih =>
    have hreading := Span.ofJson_eq_ok_iff.mp h
    have hrange : Ranges v s.start s.stop :=
      ⟨hreading.startLine.eq_word, hreading.stopLine.eq_word, hreading.startColumn.eq_word, hreading.stopColumn.eq_word⟩
    have hlink : ∀ l, ((((s.linked? l).map Span.repairs).getD []).length : ℕ∞) =
        ((v.linked? l).map reversals).getD 0 := by
      intro l
      have hlinked := Span.ofJson_linked h l
      cases hl : s.linked? l with
      | none =>
        rw [hl] at hlinked
        generalize v.linked? l = w? at hlinked ⊢
        cases hlinked
        rfl
      | some t =>
        rw [hl] at hlinked
        generalize v.linked? l = w? at hlinked ⊢
        cases hlinked with
        | some hw => exact ih l t hl hw
    rw [Span.repairs_eq, List.length_append, List.length_append, Nat.cast_add, Nat.cast_add, hlink, hlink,
      length_repairs_range hrange]
    exact (encard_waysTo IsReversed v).symm

/-! ## Sums -/

/-- What is put right in each item adds up. -/
theorem length_flatMap_of_forall₂ {α : Type} {r : Value → α → Prop} {f : α → List Event} {g : Value → ℕ∞}
    (h : ∀ v a, r v a → ((f a).length : ℕ∞) = g v) {vs : List Value} {as : List α} (hr : List.Forall₂ r vs as) :
    ((as.flatMap f).length : ℕ∞) = (vs.map g).sum := by
  induction hr with
  | nil => rfl
  | cons hv _ ih =>
    rw [List.flatMap_cons, List.length_append, Nat.cast_add, h _ _ hv, ih, List.map_cons, List.sum_cons]

/-- **The faults of a diagnostic are put right one by one.** -/
theorem Diagnostic.length_repairs {v : Value} {d : Diagnostic} (h : ofJson v = .ok d) :
    (d.repairs.length : ℕ∞) = v.repairs := by
  have hreading := Diagnostic.ofJson_eq_ok_iff.mp h
  obtain ⟨spans, hspans, hspans'⟩ := hreading.spans
  obtain ⟨children, hchildren, hchildren'⟩ := hreading.children
  have hchild := length_flatMap_of_forall₂ (fun _ _ hc => Child.length_repairs hc) (items_of_optional hchildren)
  have hspan := length_flatMap_of_forall₂ (fun _ _ hs => Span.length_repairs hs) (items_of_optional hspans)
  rw [← hchildren'] at hchild
  rw [← hspans'] at hspan
  rw [repairs, List.length_append, List.length_append, List.length_append, Nat.cast_add, Nat.cast_add, Nat.cast_add,
    Severity.length_repairs hreading.level.eq_text, hreading.code, Code.length_repairs, hchild, hspan]
  rfl

namespace Message

/-- The warnings among events. -/
def warnings (es : List Event) : List Event := es.filter (·.importance = .warn)

/-- A diagnostic leaves a warning for each of its faults. -/
theorem length_warnings_events {number : Nat} {v w : Value} {d : Diagnostic} (hv : Record.ofJson v = .diagnostic w)
    (hd : Diagnostic.ofJson w = .ok d) : ((warnings (Record.events number v)).length : ℕ∞) = w.repairs := by
  have hall : warnings d.repairs = d.repairs := by
    apply List.filter_eq_self.mpr
    intro e he
    exact decide_eq_true (d.importance_repairs e he)
  have hevents : warnings (Record.events number v) = warnings d.repairs := by
    simp only [Record.events, hv, hd]
    rfl
  rw [hevents, hall, Diagnostic.length_repairs hd]

/-- So the warnings of records add up to the faults of their diagnostics. -/
theorem length_warnings_journal {vs : List Value} (h : ∀ v ∈ vs, Record.Fits v) (before : Nat) :
    ((warnings (journal before vs)).length : ℕ∞) = ((vs.filterMap Record.payload?).map Value.repairs).sum := by
  induction vs generalizing before with
  | nil => rfl
  | cons v vs ih =>
    obtain ⟨hv, hvs⟩ := List.forall_mem_cons.mp h
    obtain ⟨x, hx⟩ := ofRecord_isOk_iff.mpr hv
    have hrest := ih hvs (before + 1)
    rw [journal_cons, warnings, List.filter_append, List.length_append, Nat.cast_add, ← warnings, ← warnings, hrest]
    rcases ofRecord_eq_ok_iff.mp hx with ⟨reason, hrecord, -⟩ | ⟨w, d, hrecord, hd, -⟩
    · have hpayload : Record.payload? v = none := by rw [Record.payload?, hrecord]
      have hnone : warnings (Record.events (before + 1) v) = [] := by
        simp only [Record.events, hrecord]
        rfl
      rw [List.filterMap_cons_none hpayload, hnone, List.length_nil, Nat.cast_zero, zero_add]
    · have hpayload : Record.payload? v = some w := by rw [Record.payload?, hrecord]
      rw [List.filterMap_cons_some hpayload, List.map_cons, List.sum_cons, length_warnings_events hrecord hd]

/-- **Every repair is reported once.** The log of a text, whether it is refused or not, has as many warnings as there
are faults in the diagnostics among its leading records. -/
theorem ofText_repaired (s : String) :
    ∃ vs, Leads s vs ∧
      ((warnings (ofText s).events).length : ℕ∞) = ((vs.filterMap Record.payload?).map Value.repairs).sum := by
  have hleads := leads_leading s
  refine ⟨_, hleads, ?_⟩
  have hlast : warnings (ofText s).events = warnings (journal 0 (leading (Json.Stream.ofText s))) := by
    rw [events_ofText, warnings, List.filter_append]
    cases (ofText s).result with
    | error e => exact List.append_nil _
    | ok ms => exact List.append_nil _
  rw [hlast]
  exact length_warnings_journal hleads.fits 0

/-- A level and a code are put right, and then a list does not end. -/
example : (warnings (ofText "[\"m\",[],\"notes\"][").events).length = 2 := rfl

end Message

end Pinpoint
