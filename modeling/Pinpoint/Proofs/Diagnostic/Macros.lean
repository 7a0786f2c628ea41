import Mathlib.Data.List.Forall2
import Mathlib.Data.Option.Basic
import Pinpoint.Proofs.Diagnostic.Fields

/-!
# The spans of macros

A span that a macro made is linked to two other spans: to the one where the macro was invoked and to the one where it
was defined. `Value.reached?` follows a way of such links through the JSON of a span, without reading it; the links of
the span that is read from the JSON are the same (`Span.ofJson_linked`).
-/

namespace Pinpoint

open Member (bind_eq_ok_iff map_eq_ok_iff)

namespace Json.Value

/-! ## Fields that may be missing -/

/-- The value of a field that is neither missing nor null. -/
def filled? (v : Value) (name : String) (place : Nat) : Option Value := (v.field? name place).filter (!·.isNull)

def text? : Value → Option String
  | .text s => some s
  | _ => none

def flag? : Value → Option Bool
  | .bool b => some b
  | _ => none

/-- The items of a list field; a field that is missing or null has none. -/
def items : Option Value → List Value
  | some (.list vs) => vs
  | _ => []

end Json.Value

open Json (Value)

/-- What is related is related in any wider way. -/
theorem rel_imp {α β : Type} {r r' : α → β → Prop} {a : Option α} {b : Option β} (h : ∀ a b, r a b → r' a b)
    (hab : Option.Rel r a b) : Option.Rel r' a b := by
  cases hab with
  | none => exact .none
  | some hab => exact .some (h _ _ hab)

/-- A mandatory text is the text of its field. -/
theorem Member.Given.eq_text {field : Option Value} {s : String} (h : Given text field s) : field = some (.text s) := by
  obtain ⟨v, rfl, hv⟩ := h
  cases v <;> cases hv
  rfl

theorem Member.Given.eq_word {field : Option Value} {n : UInt64} (h : Given word field n) :
    field = some (.number (.natural n)) := by
  obtain ⟨v, rfl, hv⟩ := h
  cases v with
  | number x => cases x <;> cases hv; rfl
  | null | bool _ | text _ | list _ | object _ => cases hv

section Optional

variable {α : Type} {read : Value → Except Mismatch α} {field : Option Value}

/-- An optional field is read where it is neither missing nor null. -/
theorem optional_eq_ok_iff {a? : Option α} :
    Member.optional read field = .ok a? ↔
      Option.Rel (fun v a => read v = .ok a) (field.filter (!·.isNull)) a? := by
  cases field with
  | none =>
    constructor
    · intro h; cases h; exact .none
    · intro h; cases h; rfl
  | some v =>
    rw [Member.optional, Option.filter_some]
    cases v.isNull with
    | true =>
      constructor
      · intro h; cases h; exact .none
      · intro h; cases h; rfl
    | false =>
      simp only [Bool.false_eq_true, if_false, Bool.not_false, if_true, map_eq_ok_iff]
      constructor
      · rintro ⟨a, ha, rfl⟩; exact .some ha
      · intro h
        cases h with
        | some ha => exact ⟨_, ha, rfl⟩

/-- An optional text is the text of its field. -/
theorem text?_of_optional {s? : Option String} (h : Member.optional Member.text field = .ok s?) :
    (field.filter (!·.isNull)).bind Value.text? = s? := by
  have hread := optional_eq_ok_iff.mp h
  generalize field.filter (!·.isNull) = filled at hread ⊢
  cases hread with
  | none => rfl
  | @some v s hv => cases v <;> cases hv; rfl

theorem flag?_of_optional {b? : Option Bool} (h : Member.optional Member.flag field = .ok b?) :
    (field.filter (!·.isNull)).bind Value.flag? = b? := by
  have hread := optional_eq_ok_iff.mp h
  generalize field.filter (!·.isNull) = filled at hread ⊢
  cases hread with
  | none => rfl
  | @some v s hv => cases v <;> cases hv; rfl

/-- Items are read one by one. -/
theorem mapM_eq_ok_iff {vs : List Value} {as : List α} :
    vs.mapM read = .ok as ↔ List.Forall₂ (fun v a => read v = .ok a) vs as := by
  induction vs generalizing as with
  | nil =>
    rw [List.mapM_nil, List.forall₂_nil_left_iff]
    exact ⟨fun h => by cases h; rfl, fun h => by subst h; rfl⟩
  | cons v vs ih =>
    simp only [List.mapM_cons, bind_eq_ok_iff, List.forall₂_cons_left_iff, ← ih]
    constructor
    · rintro ⟨a, ha, as', has, h⟩
      cases h
      exact ⟨a, as', ha, has, rfl⟩
    · rintro ⟨a, as', ha, has, rfl⟩
      exact ⟨a, ha, as', has, rfl⟩

/-- An optional list is read item by item. -/
theorem items_of_optional {as? : Option (List α)} (h : Member.optional (Member.list read) field = .ok as?) :
    List.Forall₂ (fun v a => read v = .ok a) (Value.items (field.filter (!·.isNull))) (as?.getD []) := by
  have hread := optional_eq_ok_iff.mp h
  generalize field.filter (!·.isNull) = filled at hread ⊢
  cases hread with
  | none => exact .nil
  | @some v as hv =>
    cases v with
    | list vs => exact mapM_eq_ok_iff.mp hv
    | null | bool _ | number _ | text _ | object _ => cases hv

end Optional

/-! ## Links -/

/-- The links of a span that a macro made. -/
inductive Link where
  /-- To where the macro was invoked. -/
  | invocation
  /-- To where the macro was defined. -/
  | definition
  deriving DecidableEq, Repr

/-- The value of the span at the end of a link. -/
def Json.Value.linked? (v : Value) (l : Link) : Option Value :=
  (v.filled? "expansion" 7).bind fun e =>
    match l with
    | .invocation => e.filled? "span" 0
    | .definition => e.filled? "def_site_span" 1

/-- The value of the span at the end of a way, a list of links. -/
def Json.Value.reached? (v : Value) : List Link → Option Value
  | [] => some v
  | l :: way => (v.linked? l).bind (·.reached? way)

def Span.linked? (s : Span) : Link → Option Span
  | .invocation => s.invocation
  | .definition => s.definition

/-- A span is settled once those at its links are. -/
theorem Span.linked_induction {P : Span → Prop} (h : ∀ s : Span, (∀ l t, s.linked? l = some t → P t) → P s) : ∀ s, P s
  | ⟨fileName, start, stop, isPrimary, label, invocation, definition⟩ => by
    apply h
    intro l t ht
    cases l with
    | invocation =>
      obtain rfl : invocation = some t := ht
      exact linked_induction h t
    | definition =>
      obtain rfl : definition = some t := ht
      exact linked_induction h t

/-- **The links of a span are those of its value**, and lead to the spans of the values that those lead to. -/
theorem Span.ofJson_linked {v : Value} {s : Span} (h : ofJson v = .ok s) (l : Link) :
    Option.Rel (fun w t => ofJson w = .ok t) (v.linked? l) (s.linked? l) := by
  obtain ⟨e?, he, hs⟩ := (Span.ofJson_eq_ok_iff.mp h).expansion
  obtain ⟨_, _, _, _, _, invocation, definition⟩ := s
  have hread := optional_eq_ok_iff.mp he
  rw [Json.Value.linked?, Json.Value.filled?]
  generalize (v.field? "expansion" 7).filter (!·.isNull) = filled at hread ⊢
  cases hread with
  | none =>
    cases hs
    cases l <;> exact .none
  | @some w e hw =>
    have hreading := Expansion.ofJson_eq_ok_iff.mp hw
    cases hs
    cases l with
    | invocation => exact optional_eq_ok_iff.mp hreading.invocation
    | definition => exact optional_eq_ok_iff.mp hreading.definition

end Pinpoint
