import Pinpoint.Proofs.Diagnostic.Macros
import Pinpoint.Proofs.Diagnostic.Parts
import Pinpoint.Proofs.Message.Acceptance

/-!
# Values that are read alike

Two values of the same part are alike if reading them comes to the same: to the same result, or to a mismatch of the
same text (`Part.Alike`). Values whose parts are alike are alike themselves (`Part.PartsAlike.alike`), for no reader
looks at anything else.
-/

namespace Pinpoint

open Json (Value)

/-! ## Outcomes -/

section Outcomes

variable {α β : Type}

/-- What reading comes to: a result, or the text of a mismatch. -/
def outcome (x : Except Mismatch α) : Except String α := x.mapError Mismatch.text

theorem outcome_bind (x : Except Mismatch α) (f : α → Except Mismatch β) :
    outcome (x >>= f) = outcome x >>= fun a => outcome (f a) := by
  cases x <;> rfl

theorem outcome_map (x : Except Mismatch α) (f : α → β) : outcome (f <$> x) = f <$> outcome x := by
  cases x <;> rfl

end Outcomes

/-! ## Parts -/

/-- Equal values, or containers of the same kind. -/
inductive Json.Value.SameKind : Value → Value → Prop
  | refl (v : Value) : SameKind v v
  | list (vs ws : List Value) : SameKind (.list vs) (.list ws)
  | object (ms ms' : List (String × Value)) : SameKind (.object ms) (.object ms')

theorem Json.Value.SameKind.isNull {v w : Value} (h : v.SameKind w) : v.isNull = w.isNull := by cases h <;> rfl

namespace Part

/-- Reading the values comes to the same. Of a code only its name counts, and of a list its items. -/
def ReadsAlike : Part → Value → Value → Prop
  | .record, v, w => outcome (Message.ofRecord v) = outcome (Message.ofRecord w)
  | .diagnostic, v, w =>
    outcome (Message.ofDiagnostic <$> Diagnostic.ofJson v) = outcome (Message.ofDiagnostic <$> Diagnostic.ofJson w)
  | .span, v, w => outcome (Span.ofJson v) = outcome (Span.ofJson w)
  | .expansion, v, w => outcome (Expansion.ofJson v) = outcome (Expansion.ofJson w)
  | .child, v, w => outcome (Child.ofJson v) = outcome (Child.ofJson w)
  | .code, v, w => (Code.ofJson (some v)).name? = (Code.ofJson (some w)).name?
  | .list p, v, w => ∀ vs ws, v = .list vs → w = .list ws → List.Forall₂ p.ReadsAlike vs ws
  | .plain, _, _ => True

/-- The values are of the same kind, and reading them comes to the same. -/
structure Alike (p : Part) (v w : Value) : Prop where
  kind : v.SameKind w
  reads : p.ReadsAlike v w

theorem ReadsAlike.refl (p : Part) (v : Value) : p.ReadsAlike v v := by
  induction p generalizing v with
  | list p ih =>
    intro vs ws hvs hws
    cases hvs.symm.trans hws
    exact List.forall₂_same.mpr fun v _ => ih v
  | record | diagnostic | span | expansion | child | code => rfl
  | plain => trivial

theorem Alike.refl (p : Part) (v : Value) : p.Alike v v := ⟨.refl v, .refl p v⟩

/-! ## Fields -/

section Fields

variable {α : Type} {p : Part} {read : Value → Except Mismatch α} {a b : Option Value}

/-- The reader makes no difference between values of the part that are alike. -/
def Respects (p : Part) (read : Value → Except Mismatch α) : Prop :=
  ∀ v w, p.Alike v w → outcome (read v) = outcome (read w)

theorem plain_text : plain.Respects Member.text := by
  rintro v w ⟨hkind, -⟩
  cases hkind <;> rfl

theorem plain_flag : plain.Respects Member.flag := by
  rintro v w ⟨hkind, -⟩
  cases hkind <;> rfl

theorem plain_word : plain.Respects Member.word := by
  rintro v w ⟨hkind, -⟩
  cases hkind <;> rfl

theorem outcome_mapM {vs ws : List Value}
    (h : List.Forall₂ (fun v w => outcome (read v) = outcome (read w)) vs ws) :
    outcome (vs.mapM read) = outcome (ws.mapM read) := by
  induction h with
  | nil => rfl
  | cons hv _ ih => simp only [List.mapM_cons, outcome_bind, hv, ih]

/-- Items of lists that are alike are read alike. -/
theorem Respects.list (h : ∀ v w, p.ReadsAlike v w → outcome (read v) = outcome (read w)) :
    (list p).Respects (Member.list read) := by
  rintro v w ⟨hkind, hreads⟩
  cases hkind with
  | refl v => rfl
  | object ms ms' => rfl
  | list vs ws => exact outcome_mapM ((hreads vs ws rfl rfl).imp fun _ _ hvw => h _ _ hvw)

theorem Respects.given (h : p.Respects read) (hab : Option.Rel p.Alike a b) :
    outcome (Member.given read a) = outcome (Member.given read b) := by
  cases hab with
  | none => rfl
  | some hvw => simp only [Member.given, outcome_map, h _ _ hvw]

theorem Respects.item (h : p.Respects read) {shape : Shape} {vs ws : List Value} {i : Nat}
    (hab : Option.Rel p.Alike vs[i]? ws[i]?) :
    outcome (Member.item shape read vs i) = outcome (Member.item shape read ws i) := by
  unfold Member.item
  generalize vs[i]? = a, ws[i]? = b at hab
  cases hab with
  | none => rfl
  | some hvw => exact h _ _ hvw

theorem Respects.optional (h : p.Respects read) (hab : Option.Rel p.Alike a b) :
    outcome (Member.optional read a) = outcome (Member.optional read b) := by
  cases hab with
  | none => rfl
  | some hvw =>
    rw [Member.optional, Member.optional, hvw.kind.isNull]
    split
    · rfl
    · rw [outcome_map, outcome_map, h _ _ hvw]

theorem checkLength_eq {shape : Shape} {vs ws : List Value} (h : vs.length = ws.length) :
    Member.checkLength shape vs = Member.checkLength shape ws := by
  rw [Member.checkLength, Member.checkLength, h]

end Fields

/-! ## Values whose parts are alike -/

/-- The values are objects with fields that are alike, or lists with items that are alike. -/
inductive PartsAlike (p : Part) : Value → Value → Prop
  | object {ms ms' : List (String × Value)} :
      (∀ (place : Nat) (name : String) (q : Part), p.fields[place]? = some (name, q) →
        Option.Rel q.Alike (ms.lookup name) (ms'.lookup name)) →
      PartsAlike p (.object ms) (.object ms')
  | list {vs ws : List Value} : vs.length = ws.length →
      (∀ place : Nat, Option.Rel (p.item place).Alike vs[place]? ws[place]?) → PartsAlike p (.list vs) (.list ws)

variable {v w : Value}

theorem span_reads (h : span.PartsAlike v w) : outcome (Span.ofJson v) = outcome (Span.ofJson w) := by
  have hexpansion : expansion.Respects Expansion.ofJson := fun _ _ h => h.reads
  cases h with
  | object h =>
    simp only [Span.ofJson, Expansion.ofMembers_eq, outcome_bind, outcome_map, plain_text.optional (h 0 _ _ rfl),
      plain_word.given (h 1 _ _ rfl), plain_word.given (h 2 _ _ rfl), plain_word.given (h 3 _ _ rfl),
      plain_word.given (h 4 _ _ rfl), plain_flag.optional (h 5 _ _ rfl), plain_text.optional (h 6 _ _ rfl),
      hexpansion.optional (h 7 _ _ rfl)]
  | list hlength h =>
    simp only [Span.ofJson, Expansion.ofItem_eq, outcome_bind, outcome_map, plain_text.optional (h 0),
      plain_word.item (h 1), plain_word.item (h 2), plain_word.item (h 3), plain_word.item (h 4),
      plain_flag.optional (h 5), plain_text.optional (h 6), hexpansion.optional (h 7), checkLength_eq hlength]

theorem expansion_reads (h : expansion.PartsAlike v w) :
    outcome (Expansion.ofJson v) = outcome (Expansion.ofJson w) := by
  have hspan : span.Respects Span.ofJson := fun _ _ h => h.reads
  cases h with
  | object h =>
    simp only [Expansion.ofJson, Span.ofMembers_eq, outcome_bind, hspan.optional (h 0 _ _ rfl),
      hspan.optional (h 1 _ _ rfl)]
  | list hlength h =>
    simp only [Expansion.ofJson, Span.ofItem_eq, outcome_bind, hspan.optional (h 0), hspan.optional (h 1),
      checkLength_eq hlength]

theorem child_reads (h : child.PartsAlike v w) : outcome (Child.ofJson v) = outcome (Child.ofJson w) := by
  cases h with
  | object h =>
    simp only [Child.ofJson, outcome_bind, plain_text.optional (h 0 _ _ rfl), plain_text.optional (h 1 _ _ rfl)]
  | list hlength h =>
    simp only [Child.ofJson, outcome_bind, plain_text.optional (h 0), plain_text.optional (h 1), checkLength_eq hlength]

/-! ### Codes -/

/-- A code that is an object is named by the text of its `code`. -/
theorem name?_object (members : List (String × Value)) :
    (Code.ofJson (some (.object members))).name? = (members.lookup "code").bind Value.text? := by
  simp only [Code.ofJson]
  cases members.lookup "code" with
  | none => rfl
  | some v => cases v <;> rfl

theorem text?_alike {a b : Option Value} (h : Option.Rel plain.Alike a b) :
    a.bind Value.text? = b.bind Value.text? := by
  cases h with
  | none => rfl
  | some hvw =>
    obtain ⟨hkind, -⟩ := hvw
    cases hkind <;> rfl

theorem code_reads (h : code.PartsAlike v w) : (Code.ofJson (some v)).name? = (Code.ofJson (some w)).name? := by
  cases h with
  | object h => rw [name?_object, name?_object, text?_alike (h 0 _ _ rfl)]
  | list _ _ => rfl

theorem name?_alike {a b : Option Value} (h : Option.Rel code.Alike a b) :
    (Code.ofJson a).name? = (Code.ofJson b).name? := by
  cases h with
  | none => rfl
  | some hvw => exact hvw.reads

/-! ### Diagnostics -/

/-- Of a code only the name shows in the message. -/
theorem ofDiagnostic_mk (message : String) (c : Code) (level : String) (spans : List Span) (children : List Child) :
    Message.ofDiagnostic ⟨message, c, level, spans, children⟩ =
      .make message (.ofLevel level) c.name? (some (children.filterMap Child.note?))
        (spans.map (Node.ofSpan (.ofLevel level))) :=
  rfl

theorem diagnostic_reads (h : diagnostic.PartsAlike v w) :
    outcome (Message.ofDiagnostic <$> Diagnostic.ofJson v) =
      outcome (Message.ofDiagnostic <$> Diagnostic.ofJson w) := by
  have hspans : (list span).Respects (Member.list Span.ofJson) := .list fun _ _ h => h
  have hchildren : (list child).Respects (Member.list Child.ofJson) := .list fun _ _ h => h
  cases h with
  | object h =>
    simp only [Diagnostic.ofJson, map_bind, map_pure, outcome_bind, ofDiagnostic_mk, plain_text.given (h 0 _ _ rfl),
      name?_alike (h 1 _ _ rfl), plain_text.given (h 2 _ _ rfl), hspans.optional (h 3 _ _ rfl),
      hchildren.optional (h 4 _ _ rfl)]
  | list hlength h =>
    simp only [Diagnostic.ofJson, map_bind, map_pure, outcome_bind, ofDiagnostic_mk, plain_text.item (h 0),
      name?_alike (h 1), plain_text.item (h 2), hspans.optional (h 3), hchildren.optional (h 4), checkLength_eq hlength]

/-! ### Records -/

/-- Whatever part the values are of, they are alike as plain ones. -/
theorem plain_of_alike {p : Part} {a b : Option Value} (h : Option.Rel p.Alike a b) : Option.Rel plain.Alike a b :=
  rel_imp (fun _ _ hvw => ⟨hvw.kind, trivial⟩) h

/-- A bare diagnostic is a record with a plain message. -/
theorem PartsAlike.bare (h : record.PartsAlike v w) : diagnostic.PartsAlike v w := by
  cases h with
  | object h =>
    refine .object fun place name q hq => ?_
    match place, hq with
    | 0, rfl => exact plain_of_alike (h 0 _ _ rfl)
    | 1, rfl => exact h 1 _ _ rfl
    | 2, rfl => exact h 2 _ _ rfl
    | 3, rfl => exact h 3 _ _ rfl
    | 4, rfl => exact h 4 _ _ rfl
  | list hlength h =>
    refine .list hlength fun place => ?_
    match place with
    | 0 => exact plain_of_alike (h 0)
    | 1 => exact h 1
    | 2 => exact h 2
    | 3 => exact h 3
    | 4 => exact h 4
    | place + 5 => exact plain_of_alike (h (place + 5))

/-- What a record that should be a diagnostic comes to. -/
theorem outcome_ofRecord {d : Value} (h : Record.ofJson v = .diagnostic d) :
    outcome (Message.ofRecord v) = some <$> outcome (Message.ofDiagnostic <$> Diagnostic.ofJson d) := by
  simp only [Message.ofRecord, h, comp_map, outcome_map]

theorem reason?_object (members : List (String × Value)) :
    Record.reason? (.object members) = (members.lookup "reason").bind Value.text? := by
  simp only [Record.reason?, Value.get?]
  cases members.lookup "reason" with
  | none => rfl
  | some v => cases v <;> rfl

theorem record_reads (h : record.PartsAlike v w) : outcome (Message.ofRecord v) = outcome (Message.ofRecord w) := by
  have hbare := diagnostic_reads h.bare
  cases h with
  | list hlength h => rw [outcome_ofRecord rfl, outcome_ofRecord rfl, hbare]
  | @object ms ms' h =>
    have hmessage : Option.Rel diagnostic.Alike (ms.lookup "message") (ms'.lookup "message") := h 0 _ _ rfl
    have hreason : Record.reason? (.object ms) = Record.reason? (.object ms') := by
      rw [reason?_object, reason?_object, text?_alike (h 5 _ _ rfl)]
    cases hreason' : Record.reason? (.object ms') with
    | none =>
      rw [hreason'] at hreason
      rw [outcome_ofRecord (by rw [Record.ofJson, hreason]), outcome_ofRecord (by rw [Record.ofJson, hreason']), hbare]
    | some reason =>
      rw [hreason'] at hreason
      by_cases hdiagnostic : reason = Record.diagnosticReason
      · have hv : Record.ofJson (.object ms) = .diagnostic ((ms.lookup "message").getD (.object ms)) := by
          simp only [Record.ofJson, hreason, hdiagnostic, if_true, Value.get?]
        have hw : Record.ofJson (.object ms') = .diagnostic ((ms'.lookup "message").getD (.object ms')) := by
          simp only [Record.ofJson, hreason', hdiagnostic, if_true, Value.get?]
        rw [outcome_ofRecord hv, outcome_ofRecord hw]
        generalize ms.lookup "message" = a, ms'.lookup "message" = b at hmessage
        cases hmessage with
        -- Envelopes without a message are taken for diagnostics.
        | none => exact congrArg (some <$> ·) hbare
        | some hvw => exact congrArg (some <$> ·) hvw.reads
      · simp only [Message.ofRecord, Record.ofJson, hreason, hreason', hdiagnostic, if_false]

/-- **Values whose parts are alike are alike.** -/
theorem PartsAlike.alike {p : Part} (h : p.PartsAlike v w) : p.Alike v w := by
  refine ⟨by cases h <;> constructor, ?_⟩
  cases p with
  | record => exact record_reads h
  | diagnostic => exact diagnostic_reads h
  | span => exact span_reads h
  | expansion => exact expansion_reads h
  | child => exact child_reads h
  | code => exact code_reads h
  | plain => trivial
  | list p =>
    rintro _ _ rfl rfl
    cases h with
    | list hlength h =>
      refine List.forall₂_iff_get.mpr ⟨hlength, fun i hv hw => ?_⟩
      have hitem := h i
      rw [List.getElem?_eq_getElem hv, List.getElem?_eq_getElem hw] at hitem
      cases hitem with
      | some hitem => exact hitem.reads

end Part

end Pinpoint
