import Pinpoint.Proofs.Diagnostic.Fields

/-!
# The schema of diagnostics

Which values are diagnostics, spans, expansions and children, said without reading them: what each of their fields has
to be. Both forms of a shape have the same schema. A value is read exactly if it fits (`Diagnostic.reads_iff_fits`).
-/

namespace Pinpoint

open Json (Value)

/-! ## Fields -/

/-- The field is there, and as it should be. -/
def Required (P : Value → Prop) (field : Option Value) : Prop := ∃ v, field = some v ∧ P v

/-- The field is as it should be, unless it is missing or null. -/
def Optional (P : Value → Prop) (field : Option Value) : Prop := ∀ v, field = some v → v ≠ .null → P v

def IsText (v : Value) : Prop := ∃ s, v = .text s

def IsFlag (v : Value) : Prop := ∃ b, v = .bool b

/-- A whole number from zero up to the largest of 64 bits, spelled by its digits alone. -/
def IsWord (v : Value) : Prop := ∃ n : UInt64, v = .number (.natural n)

def IsListOf (P : Value → Prop) (v : Value) : Prop := ∃ vs, v = .list vs ∧ ∀ w ∈ vs, P w

/-! ## Shapes -/

mutual

/-- The value has the fields of a span. -/
inductive Span.Fits : Value → Prop
  | fields {v : Value} : Shape.span.Frames v → Optional IsText (v.field? "file_name" 0) →
      Required IsWord (v.field? "line_start" 1) → Required IsWord (v.field? "line_end" 2) →
      Required IsWord (v.field? "column_start" 3) → Required IsWord (v.field? "column_end" 4) →
      Optional IsFlag (v.field? "is_primary" 5) → Optional IsText (v.field? "label" 6) →
      Optional Expansion.Fits (v.field? "expansion" 7) → Span.Fits v

/-- The value has the fields of an expansion. -/
inductive Expansion.Fits : Value → Prop
  | fields {v : Value} : Shape.expansion.Frames v → Optional Span.Fits (v.field? "span" 0) →
      Optional Span.Fits (v.field? "def_site_span" 1) → Expansion.Fits v

end

/-- The value has the fields of a child. -/
structure Child.Fits (v : Value) : Prop where
  frame : Shape.child.Frames v
  message : Optional IsText (v.field? "message" 0)
  level : Optional IsText (v.field? "level" 1)

/-- The value has the fields of a diagnostic. Its code may be any value. -/
structure Diagnostic.Fits (v : Value) : Prop where
  frame : Shape.diagnostic.Frames v
  message : Required IsText (v.field? "message" 0)
  level : Required IsText (v.field? "level" 2)
  spans : Optional (IsListOf Span.Fits) (v.field? "spans" 3)
  children : Optional (IsListOf Child.Fits) (v.field? "children" 4)

/-- A mandatory item makes a list longer than its place. -/
theorem Required.lt_length {P : Value → Prop} {vs : List Value} {i : Nat} (h : Required P vs[i]?) : i < vs.length := by
  obtain ⟨v, hv, -⟩ := h
  exact (List.getElem?_eq_some_iff.mp hv).1

/-- A span in the form of a list has five to eight items. -/
theorem Span.Fits.length {vs : List Value} (h : Span.Fits (.list vs)) : 5 ≤ vs.length ∧ vs.length ≤ 8 := by
  cases h with
  | fields hframe _ _ _ _ hstopColumn _ _ _ => exact ⟨hstopColumn.lt_length, hframe⟩

/-- A diagnostic in the form of a list has three to five items. -/
theorem Diagnostic.Fits.length {vs : List Value} (h : Diagnostic.Fits (.list vs)) : 3 ≤ vs.length ∧ vs.length ≤ 5 :=
  ⟨h.level.lt_length, h.frame⟩

/-! ## Fields that are read -/

section Reading

variable {α β : Type} {read : Value → Except Mismatch α} {P : Value → Prop} {field : Option Value}

/-- The value is not refused. -/
def Reads (read : β → Except Mismatch α) (b : β) : Prop := ∃ a, read b = .ok a

theorem reads_text_iff {v : Value} : Reads Member.text v ↔ IsText v := by
  cases v <;> simp [Reads, Member.text, IsText]

theorem reads_flag_iff {v : Value} : Reads Member.flag v ↔ IsFlag v := by
  cases v <;> simp [Reads, Member.flag, IsFlag]

theorem reads_word_iff {v : Value} : Reads Member.word v ↔ IsWord v := by
  cases v with
  | number n => cases n <;> simp [Reads, Member.word, IsWord]
  | _ => simp [Reads, Member.word, IsWord]

/-- An optional field is read if it is as it should be. -/
theorem reads_optional_iff (h : ∀ v, field = some v → (Reads read v ↔ P v)) :
    Reads (Member.optional read) field ↔ Optional P field := by
  cases field with
  | none => exact ⟨fun _ => nofun, fun _ => ⟨none, rfl⟩⟩
  | some v =>
    have hv := h v rfl
    by_cases hnull : v = .null
    · subst hnull
      exact ⟨fun _ w hw hne => absurd (Option.some.inj hw).symm hne, fun _ => ⟨none, rfl⟩⟩
    · have hread : Member.optional read (some v) = some <$> read v := by
        cases v <;> first | rfl | exact absurd rfl hnull
      simp only [Reads, hread, Member.map_eq_ok_iff]
      constructor
      · rintro ⟨_, a, ha, -⟩ w hw -
        cases hw
        exact hv.mp ⟨a, ha⟩
      · intro hfit
        obtain ⟨a, ha⟩ := hv.mpr (hfit v rfl hnull)
        exact ⟨some a, a, ha, rfl⟩

theorem reads_optional_text_iff : Reads (Member.optional Member.text) field ↔ Optional IsText field :=
  reads_optional_iff fun _ _ => reads_text_iff

/-- A mandatory field is read if it is as it should be. -/
theorem given_iff (h : ∀ v, Reads read v ↔ P v) : (∃ a, Member.Given read field a) ↔ Required P field := by
  constructor
  · rintro ⟨a, v, hv, ha⟩
    exact ⟨v, hv, (h v).mp ⟨a, ha⟩⟩
  · rintro ⟨v, hv, hfit⟩
    obtain ⟨a, ha⟩ := (h v).mpr hfit
    exact ⟨a, v, hv, ha⟩

theorem reads_mapM_iff {vs : List Value} : (∃ as, vs.mapM read = .ok as) ↔ ∀ v ∈ vs, Reads read v := by
  induction vs with
  | nil => exact ⟨fun _ => nofun, fun _ => ⟨[], rfl⟩⟩
  | cons v vs ih =>
    simp only [List.mapM_cons, Member.bind_eq_ok_iff, List.forall_mem_cons, ← ih]
    constructor
    · rintro ⟨_, a, ha, as, has, -⟩
      exact ⟨⟨a, ha⟩, as, has⟩
    · rintro ⟨⟨a, ha⟩, as, has⟩
      exact ⟨a :: as, a, ha, as, has, rfl⟩

theorem reads_list_iff (h : ∀ v, Reads read v ↔ P v) {v : Value} : Reads (Member.list read) v ↔ IsListOf P v := by
  cases v with
  | list vs =>
    simp only [Reads, Member.list, reads_mapM_iff, IsListOf, ← h]
    exact ⟨fun hvs => ⟨vs, rfl, hvs⟩, fun ⟨_, hvs, hfit⟩ => by cases hvs; exact hfit⟩
  | null | bool _ | number _ | text _ | object _ => exact ⟨nofun, nofun⟩

end Reading

/-! ## Values that are read -/

/-- A field lies inside the value. -/
theorem Json.Value.sizeOf_field?_lt {v w : Value} {name : String} {place : Nat} (h : v.field? name place = some w) :
    sizeOf w < sizeOf v := by
  cases v with
  | object members =>
    obtain ⟨l, r, rfl, -⟩ := List.lookup_eq_some_iff.mp h
    have hmem : (name, w) ∈ l ++ (name, w) :: r := List.mem_append_right l List.mem_cons_self
    have := List.sizeOf_lt_of_mem hmem
    simp only [Prod.mk.sizeOf_spec, Value.object.sizeOf_spec] at this ⊢
    omega
  | list vs =>
    have := List.sizeOf_lt_of_mem (List.mem_of_getElem? h)
    simp only [Value.list.sizeOf_spec]
    omega
  | null | bool _ | number _ | text _ => cases h

mutual

/-- Spans are read from the values that fit. -/
theorem Span.reads_iff_fits (v : Value) : Reads Span.ofJson v ↔ Span.Fits v := by
  have hexpansion : Reads (Member.optional Expansion.ofJson) (v.field? "expansion" 7) ↔
      Optional Expansion.Fits (v.field? "expansion" 7) := reads_optional_iff fun w hw => Expansion.reads_iff_fits w
  have hflag : ∀ {field}, Reads (Member.optional Member.flag) field ↔ Optional IsFlag field :=
    reads_optional_iff fun _ _ => reads_flag_iff
  have hword : ∀ {field}, (∃ a, Member.Given Member.word field a) ↔ Required IsWord field :=
    given_iff fun _ => reads_word_iff
  constructor
  · rintro ⟨s, hs⟩
    have h := Span.ofJson_eq_ok_iff.mp hs
    obtain ⟨isPrimary, hisPrimary, -⟩ := h.isPrimary
    obtain ⟨e, he, -⟩ := h.expansion
    exact .fields h.frame (reads_optional_text_iff.mp ⟨_, h.fileName⟩) (hword.mp ⟨_, h.startLine⟩)
      (hword.mp ⟨_, h.stopLine⟩) (hword.mp ⟨_, h.startColumn⟩) (hword.mp ⟨_, h.stopColumn⟩)
      (hflag.mp ⟨_, hisPrimary⟩) (reads_optional_text_iff.mp ⟨_, h.label⟩) (hexpansion.mp ⟨e, he⟩)
  · rintro ⟨hframe, h₀, h₁, h₂, h₃, h₄, h₅, h₆, h₇⟩
    obtain ⟨fileName, hfileName⟩ := reads_optional_text_iff.mpr h₀
    obtain ⟨startLine, hstartLine⟩ := hword.mpr h₁
    obtain ⟨stopLine, hstopLine⟩ := hword.mpr h₂
    obtain ⟨startColumn, hstartColumn⟩ := hword.mpr h₃
    obtain ⟨stopColumn, hstopColumn⟩ := hword.mpr h₄
    obtain ⟨isPrimary, hisPrimary⟩ := hflag.mpr h₅
    obtain ⟨label, hlabel⟩ := reads_optional_text_iff.mpr h₆
    obtain ⟨e, he⟩ := hexpansion.mpr h₇
    exact ⟨⟨fileName, ⟨startLine, startColumn⟩, ⟨stopLine, stopColumn⟩, isPrimary.getD true, label,
        (e.getD ⟨none, none⟩).invocation, (e.getD ⟨none, none⟩).definition⟩,
      Span.ofJson_eq_ok_iff.mpr ⟨hframe, hfileName, hstartLine, hstopLine, hstartColumn, hstopColumn,
        ⟨isPrimary, hisPrimary, rfl⟩, hlabel, ⟨e, he, rfl⟩⟩⟩
termination_by sizeOf v
decreasing_by exact Json.Value.sizeOf_field?_lt hw

theorem Expansion.reads_iff_fits (v : Value) : Reads Expansion.ofJson v ↔ Expansion.Fits v := by
  have hinvocation : Reads (Member.optional Span.ofJson) (v.field? "span" 0) ↔
      Optional Span.Fits (v.field? "span" 0) := reads_optional_iff fun w hw => Span.reads_iff_fits w
  have hdefinition : Reads (Member.optional Span.ofJson) (v.field? "def_site_span" 1) ↔
      Optional Span.Fits (v.field? "def_site_span" 1) := reads_optional_iff fun w hw => Span.reads_iff_fits w
  constructor
  · rintro ⟨e, he⟩
    have h := Expansion.ofJson_eq_ok_iff.mp he
    exact .fields h.frame (hinvocation.mp ⟨_, h.invocation⟩) (hdefinition.mp ⟨_, h.definition⟩)
  · rintro ⟨hframe, h₀, h₁⟩
    obtain ⟨invocation, hinvocation⟩ := hinvocation.mpr h₀
    obtain ⟨definition, hdefinition⟩ := hdefinition.mpr h₁
    exact ⟨⟨invocation, definition⟩, Expansion.ofJson_eq_ok_iff.mpr ⟨hframe, hinvocation, hdefinition⟩⟩
termination_by sizeOf v
decreasing_by all_goals exact Json.Value.sizeOf_field?_lt hw

end

/-- Children are read from the values that fit. -/
theorem Child.reads_iff_fits (v : Value) : Reads Child.ofJson v ↔ Child.Fits v := by
  constructor
  · rintro ⟨c, hc⟩
    have h := Child.ofJson_eq_ok_iff.mp hc
    exact ⟨h.frame, reads_optional_text_iff.mp ⟨_, h.message⟩, reads_optional_text_iff.mp ⟨_, h.level⟩⟩
  · rintro ⟨hframe, h₀, h₁⟩
    obtain ⟨message, hmessage⟩ := reads_optional_text_iff.mpr h₀
    obtain ⟨level, hlevel⟩ := reads_optional_text_iff.mpr h₁
    exact ⟨⟨message, level⟩, Child.ofJson_eq_ok_iff.mpr ⟨hframe, hmessage, hlevel⟩⟩

/-- **Diagnostics are read from the values that fit**, and from no others. -/
theorem Diagnostic.reads_iff_fits (v : Value) : Reads Diagnostic.ofJson v ↔ Diagnostic.Fits v := by
  have htext : ∀ {field}, (∃ a, Member.Given Member.text field a) ↔ Required IsText field :=
    given_iff fun _ => reads_text_iff
  have hspans : ∀ {field}, Reads (Member.optional (Member.list Span.ofJson)) field ↔
      Optional (IsListOf Span.Fits) field := reads_optional_iff fun _ _ => reads_list_iff Span.reads_iff_fits
  have hchildren : ∀ {field}, Reads (Member.optional (Member.list Child.ofJson)) field ↔
      Optional (IsListOf Child.Fits) field := reads_optional_iff fun _ _ => reads_list_iff Child.reads_iff_fits
  constructor
  · rintro ⟨d, hd⟩
    have h := Diagnostic.ofJson_eq_ok_iff.mp hd
    obtain ⟨spans, hs, -⟩ := h.spans
    obtain ⟨children, hc, -⟩ := h.children
    exact ⟨h.frame, htext.mp ⟨_, h.message⟩, htext.mp ⟨_, h.level⟩, hspans.mp ⟨_, hs⟩, hchildren.mp ⟨_, hc⟩⟩
  · rintro ⟨hframe, h₀, h₂, h₃, h₄⟩
    obtain ⟨message, hmessage⟩ := htext.mpr h₀
    obtain ⟨level, hlevel⟩ := htext.mpr h₂
    obtain ⟨spans, hs⟩ := hspans.mpr h₃
    obtain ⟨children, hc⟩ := hchildren.mpr h₄
    exact ⟨⟨message, Code.ofJson (v.field? "code" 1), level, spans.getD [], children.getD []⟩,
      Diagnostic.ofJson_eq_ok_iff.mpr ⟨hframe, hmessage, rfl, hlevel, ⟨spans, hs, rfl⟩, ⟨children, hc, rfl⟩⟩⟩

end Pinpoint
