import Pinpoint.Diagnostic.OfJson

/-!
# The fields of diagnostics

A field is a member of an object or an item of a list, so the two forms of a shape are read alike: each shape has one
statement of what is read for each of its fields (`Span.ofJson_eq_ok_iff` and its like), whatever the form, the order of
reading and the way in which the macros' spans are found.
-/

namespace Pinpoint

open Json (Value)

/-- The field of a value: the member of that name of an object, or the item at that place of a list. -/
def Json.Value.field? (v : Value) (name : String) (place : Nat) : Option Value :=
  match v with
  | .object members => members.lookup name
  | .list vs => vs[place]?
  | _ => none

/-- An object, or a list with no more items than the shape has fields. -/
def Shape.Frames (shape : Shape) : Value → Prop
  | .object _ => True
  | .list vs => vs.length ≤ shape.size
  | _ => False

/-! ## Single fields -/

namespace Member

variable {ε α β : Type} {read : Value → Except Mismatch α}

theorem bind_eq_ok_iff {x : Except ε α} {f : α → Except ε β} {b : β} :
    (x >>= f) = .ok b ↔ ∃ a, x = .ok a ∧ f a = .ok b := by
  cases x <;> simp [bind, Except.bind]

theorem map_eq_ok_iff {x : Except ε α} {f : α → β} {b : β} : f <$> x = .ok b ↔ ∃ a, x = .ok a ∧ f a = b := by
  cases x <;> simp [Functor.map, Except.map]

/-- A mandatory field is there, and read as `a`. -/
def Given (read : Value → Except Mismatch α) (field : Option Value) (a : α) : Prop :=
  ∃ v, field = some v ∧ read v = .ok a

theorem given_eq_ok_some_iff {field : Option Value} {a : α} :
    given read field = .ok (some a) ↔ Given read field a := by
  cases field with
  | none => simp [given, Given]
  | some v => simp [given, Given, map_eq_ok_iff]

theorem require_eq_ok_iff {name : String} {x : Option α} {a : α} : require name x = .ok a ↔ x = some a := by
  cases x <;> simp [require]

theorem item_eq_ok_iff {shape : Shape} {vs : List Value} {i : Nat} {a : α} :
    item shape read vs i = .ok a ↔ Given read vs[i]? a := by
  unfold item Given
  cases vs[i]? <;> simp

theorem checkLength_eq_ok_iff {shape : Shape} {vs : List Value} {u : Unit} :
    checkLength shape vs = .ok u ↔ shape.Frames (.list vs) := by
  unfold checkLength Shape.Frames
  split <;> simp_all

end Member

open Member (Given bind_eq_ok_iff map_eq_ok_iff given_eq_ok_some_iff require_eq_ok_iff item_eq_ok_iff
  checkLength_eq_ok_iff)

/-! ## Macros -/

/-- An optional expansion that is missing or null has no spans. -/
theorem Expansion.optional_some (v : Value) :
    (if v.isNull then .ok ⟨none, none⟩ else ofJson v) =
      (·.getD ⟨none, none⟩) <$> Member.optional ofJson (some v) := by
  unfold Member.optional
  cases hv : v.isNull with
  | true => simp only [hv, if_true]; rfl
  | false => simp only [hv]; cases ofJson v <;> rfl

theorem Expansion.ofMembers_eq (members : List (String × Value)) :
    ofMembers members = (·.getD ⟨none, none⟩) <$> Member.optional ofJson (members.lookup "expansion") := by
  induction members with
  | nil => rfl
  | cons m members ih =>
    obtain ⟨k, v⟩ := m
    rw [ofMembers, List.lookup_cons, ih]
    by_cases hk : k = "expansion"
    · subst hk
      exact optional_some v
    · rw [if_neg hk, beq_eq_false_iff_ne.mpr (Ne.symm hk)]

theorem Expansion.ofItem_eq (i : Nat) (vs : List Value) :
    ofItem i vs = (·.getD ⟨none, none⟩) <$> Member.optional ofJson vs[i]? := by
  induction vs generalizing i with
  | nil => rfl
  | cons v vs ih =>
    cases i with
    | zero => exact optional_some v
    | succ i => rw [ofItem, ih, List.getElem?_cons_succ]

theorem Span.ofMembers_eq (key : String) (members : List (String × Value)) :
    ofMembers key members = Member.optional ofJson (members.lookup key) := by
  induction members with
  | nil => rfl
  | cons m members ih =>
    obtain ⟨k, v⟩ := m
    rw [ofMembers, List.lookup_cons, ih]
    by_cases hk : k = key
    · subst hk
      rw [if_pos rfl, beq_self_eq_true]
      rfl
    · rw [if_neg hk, beq_eq_false_iff_ne.mpr (Ne.symm hk)]

theorem Span.ofItem_eq (i : Nat) (vs : List Value) : ofItem i vs = Member.optional ofJson vs[i]? := by
  induction vs generalizing i with
  | nil => rfl
  | cons v vs ih =>
    cases i with
    | zero => rfl
    | succ i => rw [ofItem, ih, List.getElem?_cons_succ]

/-! ## Shapes -/

/-- What is read for the fields of a span. -/
structure Span.Reading (v : Value) (s : Span) : Prop where
  frame : Shape.span.Frames v
  fileName : Member.optional Member.text (v.field? "file_name" 0) = .ok s.fileName
  startLine : Given Member.word (v.field? "line_start" 1) s.start.line
  stopLine : Given Member.word (v.field? "line_end" 2) s.stop.line
  startColumn : Given Member.word (v.field? "column_start" 3) s.start.column
  stopColumn : Given Member.word (v.field? "column_end" 4) s.stop.column
  isPrimary : ∃ b, Member.optional Member.flag (v.field? "is_primary" 5) = .ok b ∧ s.isPrimary = b.getD true
  label : Member.optional Member.text (v.field? "label" 6) = .ok s.label
  expansion : ∃ e, Member.optional Expansion.ofJson (v.field? "expansion" 7) = .ok e ∧
    e.getD ⟨none, none⟩ = ⟨s.invocation, s.definition⟩

theorem Span.ofJson_eq_ok_iff {v : Value} {s : Span} : ofJson v = .ok s ↔ Reading v s := by
  cases v with
  | object members =>
    simp only [ofJson, bind_eq_ok_iff, Expansion.ofMembers_eq, map_eq_ok_iff, require_eq_ok_iff]
    constructor
    · rintro ⟨stopColumn, h₄, startColumn, h₃, expansion, ⟨e, h₇, rfl⟩, fileName, h₀, isPrimary, h₅, label, h₆,
        stopLine, h₂, startLine, h₁, _, rfl, _, rfl, _, rfl, _, rfl, hs⟩
      cases hs
      exact ⟨trivial, h₀, given_eq_ok_some_iff.mp h₁, given_eq_ok_some_iff.mp h₂, given_eq_ok_some_iff.mp h₃,
        given_eq_ok_some_iff.mp h₄, ⟨isPrimary, h₅, rfl⟩, h₆, ⟨e, h₇, rfl⟩⟩
    · rintro ⟨-, h₀, h₁, h₂, h₃, h₄, ⟨b, h₅, hb⟩, h₆, ⟨e, h₇, he⟩⟩
      refine ⟨_, given_eq_ok_some_iff.mpr h₄, _, given_eq_ok_some_iff.mpr h₃, _, ⟨e, h₇, rfl⟩, _, h₀, _, h₅, _, h₆, _,
        given_eq_ok_some_iff.mpr h₂, _, given_eq_ok_some_iff.mpr h₁, _, rfl, _, rfl, _, rfl, _, rfl, ?_⟩
      rw [he, ← hb]
      cases s
      rfl
  | list vs =>
    simp only [ofJson, bind_eq_ok_iff, Expansion.ofItem_eq, map_eq_ok_iff, item_eq_ok_iff, checkLength_eq_ok_iff]
    constructor
    · rintro ⟨fileName, h₀, startLine, h₁, stopLine, h₂, startColumn, h₃, stopColumn, h₄, isPrimary, h₅, label, h₆,
        expansion, ⟨e, h₇, rfl⟩, _, hframe, hs⟩
      cases hs
      exact ⟨hframe, h₀, h₁, h₂, h₃, h₄, ⟨isPrimary, h₅, rfl⟩, h₆, ⟨e, h₇, rfl⟩⟩
    · rintro ⟨hframe, h₀, h₁, h₂, h₃, h₄, ⟨b, h₅, hb⟩, h₆, ⟨e, h₇, he⟩⟩
      refine ⟨_, h₀, _, h₁, _, h₂, _, h₃, _, h₄, _, h₅, _, h₆, _, ⟨e, h₇, rfl⟩, (), hframe, ?_⟩
      rw [he, ← hb]
      cases s
      rfl
  | null | bool _ | number _ | text _ => exact ⟨nofun, fun h => h.frame.elim⟩

/-- What is read for the fields of an expansion. -/
structure Expansion.Reading (v : Value) (e : Expansion) : Prop where
  frame : Shape.expansion.Frames v
  invocation : Member.optional Span.ofJson (v.field? "span" 0) = .ok e.invocation
  definition : Member.optional Span.ofJson (v.field? "def_site_span" 1) = .ok e.definition

theorem Expansion.ofJson_eq_ok_iff {v : Value} {e : Expansion} : ofJson v = .ok e ↔ Reading v e := by
  cases v with
  | object members =>
    simp only [ofJson, bind_eq_ok_iff, Span.ofMembers_eq]
    constructor
    · rintro ⟨definition, h₁, invocation, h₀, he⟩
      cases he
      exact ⟨trivial, h₀, h₁⟩
    · rintro ⟨-, h₀, h₁⟩
      exact ⟨_, h₁, _, h₀, rfl⟩
  | list vs =>
    simp only [ofJson, bind_eq_ok_iff, Span.ofItem_eq, checkLength_eq_ok_iff]
    constructor
    · rintro ⟨invocation, h₀, definition, h₁, _, hframe, he⟩
      cases he
      exact ⟨hframe, h₀, h₁⟩
    · rintro ⟨hframe, h₀, h₁⟩
      exact ⟨_, h₀, _, h₁, (), hframe, rfl⟩
  | null | bool _ | number _ | text _ => exact ⟨nofun, fun h => h.frame.elim⟩

/-- What is read for the fields of a child. -/
structure Child.Reading (v : Value) (c : Child) : Prop where
  frame : Shape.child.Frames v
  message : Member.optional Member.text (v.field? "message" 0) = .ok c.message
  level : Member.optional Member.text (v.field? "level" 1) = .ok c.level

theorem Child.ofJson_eq_ok_iff {v : Value} {c : Child} : ofJson v = .ok c ↔ Reading v c := by
  cases v with
  | object members =>
    simp only [ofJson, bind_eq_ok_iff]
    constructor
    · rintro ⟨level, h₁, message, h₀, hc⟩
      cases hc
      exact ⟨trivial, h₀, h₁⟩
    · rintro ⟨-, h₀, h₁⟩
      exact ⟨_, h₁, _, h₀, rfl⟩
  | list vs =>
    simp only [ofJson, bind_eq_ok_iff, checkLength_eq_ok_iff]
    constructor
    · rintro ⟨message, h₀, level, h₁, _, hframe, hc⟩
      cases hc
      exact ⟨hframe, h₀, h₁⟩
    · rintro ⟨hframe, h₀, h₁⟩
      exact ⟨_, h₀, _, h₁, (), hframe, rfl⟩
  | null | bool _ | number _ | text _ => exact ⟨nofun, fun h => h.frame.elim⟩

/-- What is read for the fields of a diagnostic. -/
structure Diagnostic.Reading (v : Value) (d : Diagnostic) : Prop where
  frame : Shape.diagnostic.Frames v
  message : Given Member.text (v.field? "message" 0) d.message
  code : d.code = Code.ofJson (v.field? "code" 1)
  level : Given Member.text (v.field? "level" 2) d.level
  spans : ∃ spans, Member.optional (Member.list Span.ofJson) (v.field? "spans" 3) = .ok spans ∧ d.spans = spans.getD []
  children : ∃ children, Member.optional (Member.list Child.ofJson) (v.field? "children" 4) = .ok children ∧
    d.children = children.getD []

theorem Diagnostic.ofJson_eq_ok_iff {v : Value} {d : Diagnostic} : ofJson v = .ok d ↔ Reading v d := by
  cases v with
  | object members =>
    simp only [ofJson, bind_eq_ok_iff, require_eq_ok_iff]
    constructor
    · rintro ⟨children, h₄, level, h₂, message, h₀, spans, h₃, _, rfl, _, rfl, hd⟩
      cases hd
      exact ⟨trivial, given_eq_ok_some_iff.mp h₀, rfl, given_eq_ok_some_iff.mp h₂, ⟨spans, h₃, rfl⟩,
        ⟨children, h₄, rfl⟩⟩
    · rintro ⟨-, h₀, hcode, h₂, ⟨spans, h₃, hspans⟩, ⟨children, h₄, hchildren⟩⟩
      refine ⟨_, h₄, _, given_eq_ok_some_iff.mpr h₂, _, given_eq_ok_some_iff.mpr h₀, _, h₃, _, rfl, _, rfl, ?_⟩
      rw [← hspans, ← hchildren]
      obtain ⟨message, code, level, spans, children⟩ := d
      cases hcode
      rfl
  | list vs =>
    simp only [ofJson, bind_eq_ok_iff, item_eq_ok_iff, checkLength_eq_ok_iff]
    constructor
    · rintro ⟨message, h₀, level, h₂, spans, h₃, children, h₄, _, hframe, hd⟩
      cases hd
      exact ⟨hframe, h₀, rfl, h₂, ⟨spans, h₃, rfl⟩, ⟨children, h₄, rfl⟩⟩
    · rintro ⟨hframe, h₀, hcode, h₂, ⟨spans, h₃, hspans⟩, ⟨children, h₄, hchildren⟩⟩
      refine ⟨_, h₀, _, h₂, _, h₃, _, h₄, (), hframe, ?_⟩
      rw [← hspans, ← hchildren]
      obtain ⟨message, code, level, spans, children⟩ := d
      cases hcode
      rfl
  | null | bool _ | number _ | text _ => exact ⟨nofun, fun h => h.frame.elim⟩

end Pinpoint
