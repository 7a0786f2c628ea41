import Pinpoint.Proofs.Diagnostic.Schema
import Pinpoint.Proofs.Json.Streams
import Pinpoint.Proofs.Message.Records

/-!
# Texts that are accepted

A text is accepted exactly if the grammar derives a stream of values from it each of which is a record: one that a build
tool meant for others, a diagnostic in an envelope, or a bare diagnostic (`ofText_isOk_iff`).
-/

namespace Pinpoint

open Json (Value Stream SpellsStream)

/-- The value is a record: it is skipped for its reason, it holds a diagnostic as its message, or it is a diagnostic
without a reason. -/
inductive Record.Fits (v : Value) : Prop
  | skipped {reason : String} : v.get? "reason" = some (.text reason) → reason ≠ "compiler-message" → Fits v
  | enveloped {w : Value} : v.get? "reason" = some (.text "compiler-message") → v.get? "message" = some w →
      Diagnostic.Fits w → Fits v
  | bare : (∀ reason, v.get? "reason" ≠ some (.text reason)) → Diagnostic.Fits v → Fits v

namespace Record

theorem reason?_eq_some_iff {v : Value} {reason : String} :
    reason? v = some reason ↔ v.get? "reason" = some (.text reason) := by
  unfold reason?
  split
  · next h => simp [h]
  · next h => exact ⟨nofun, fun hv => absurd hv (h reason)⟩

theorem ofJson_of_reason {v : Value} {reason : String} (h : v.get? "reason" = some (.text reason)) :
    ofJson v = if reason = "compiler-message" then .diagnostic ((v.get? "message").getD v) else .skipped reason := by
  rw [ofJson, reason?_eq_some_iff.mpr h]
  rfl

theorem ofJson_of_bare {v : Value} (h : ∀ reason, v.get? "reason" ≠ some (.text reason)) :
    ofJson v = .diagnostic v := by
  have hreason : reason? v = none := Option.eq_none_iff_forall_ne_some.mpr fun r hr => h r (reason?_eq_some_iff.mp hr)
  rw [ofJson, hreason]

/-- An envelope without a message is no diagnostic. -/
theorem not_fits_of_message {v : Value} (h : v.get? "message" = none) (hobject : (v.get? "reason").isSome) :
    ¬Diagnostic.Fits v := by
  intro hfit
  obtain ⟨w, hw, -⟩ := hfit.message
  cases v with
  | object members => exact absurd (h.symm.trans hw) nofun
  | _ => cases hobject

end Record

namespace Message

/-- A value that should be a diagnostic is accepted if it is one. -/
theorem ofRecord_isOk_of_diagnostic {v w : Value} (hv : Record.ofJson v = .diagnostic w) :
    (∃ x, ofRecord v = .ok x) ↔ Diagnostic.Fits w := by
  simp only [← Diagnostic.reads_iff_fits, ofRecord_eq_ok_iff, hv]
  constructor
  · rintro ⟨x, ⟨reason, hskipped, -⟩ | ⟨w', d, hw, hd, -⟩⟩
    · cases hskipped
    · cases hw
      exact ⟨d, hd⟩
  · rintro ⟨d, hd⟩
    exact ⟨some (ofDiagnostic d), .inr ⟨w, d, rfl, hd, rfl⟩⟩

/-- Records are accepted if they fit. -/
theorem ofRecord_isOk_iff {v : Value} : (∃ x, ofRecord v = .ok x) ↔ Record.Fits v := by
  by_cases hreason : ∃ reason, v.get? "reason" = some (.text reason)
  · obtain ⟨reason, hreason⟩ := hreason
    by_cases hdiagnostic : reason = "compiler-message"
    · subst hdiagnostic
      rw [ofRecord_isOk_of_diagnostic (Record.ofJson_of_reason hreason)]
      constructor
      · intro hfit
        cases hmessage : v.get? "message" with
        | none =>
          rw [hmessage] at hfit
          have hobject : (v.get? "reason").isSome := by rw [hreason]; rfl
          exact absurd hfit (Record.not_fits_of_message hmessage hobject)
        | some w =>
          rw [hmessage] at hfit
          exact .enveloped hreason hmessage hfit
      · intro hrecord
        cases hrecord with
        | skipped hreason' hne => cases hreason.symm.trans hreason'; exact absurd rfl hne
        | enveloped _ hmessage hfit => rw [hmessage]; exact hfit
        | bare hbare _ => exact absurd hreason (hbare _)
    · refine ⟨fun _ => .skipped hreason hdiagnostic, fun _ => ⟨none, ofRecord_eq_ok_iff.mpr (.inl ⟨reason, ?_, rfl⟩)⟩⟩
      rw [Record.ofJson_of_reason hreason, if_neg hdiagnostic]
  · have hbare : ∀ reason, v.get? "reason" ≠ some (.text reason) := fun reason h => hreason ⟨reason, h⟩
    rw [ofRecord_isOk_of_diagnostic (Record.ofJson_of_bare hbare)]
    constructor
    · exact .bare hbare
    · intro hrecord
      cases hrecord with
      | skipped hreason' _ => exact absurd hreason' (hbare _)
      | enveloped hreason' _ _ => exact absurd hreason' (hbare _)
      | bare _ hfit => exact hfit

/-- Values give messages if each of them is a record. -/
theorem exists_gives_iff {vs : List Value} : (∃ ms, Gives vs ms) ↔ ∀ v ∈ vs, Record.Fits v := by
  induction vs with
  | nil => exact ⟨fun _ => nofun, fun _ => ⟨[], .nil⟩⟩
  | cons v vs ih =>
    rw [List.forall_mem_cons, ← ih, ← ofRecord_isOk_iff]
    constructor
    · rintro ⟨ms, hg⟩
      cases hg with
      | cons hx hg => exact ⟨⟨_, hx⟩, _, hg⟩
    · rintro ⟨⟨x, hx⟩, ms, hg⟩
      exact ⟨x.toList ++ ms, .cons hx hg⟩

/-- **Which texts are accepted**: the streams of JSON values all of which are records. -/
theorem ofText_isOk_iff {s : String} :
    (∃ ms, (ofText s).result = .ok ms) ↔ ∃ vs, SpellsStream s.toList vs ∧ ∀ v ∈ vs, Record.Fits v := by
  simp only [ofText_eq_ok_iff, Stream.values?_ofText_iff, ← exists_gives_iff]
  constructor
  · rintro ⟨ms, vs, hvs, hg⟩
    exact ⟨vs, hvs, ms, hg⟩
  · rintro ⟨vs, hvs, ms, hg⟩
    exact ⟨ms, vs, hvs, hg⟩

end Message

end Pinpoint
