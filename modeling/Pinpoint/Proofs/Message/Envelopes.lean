import Pinpoint.Proofs.Message.Acceptance
import Pinpoint.Proofs.Message.Concatenation
import Pinpoint.Proofs.Message.Values

/-!
# Diagnostics in envelopes

It makes no difference whether the diagnostics of a stream are bare or in envelopes, or what other records of the build
tool stand between them: the messages are the same, and so is the error, but for the skipped records that are counted
before it (`ofText_wrapped`).
-/

namespace Pinpoint

open Json (Value SpellsStream)

/-- No text is the reason of the value, so it stands for itself. -/
def Record.Bare (v : Value) : Prop := ∀ reason, v.get? "reason" ≠ some (.text reason)

namespace Message

/-- The second values are the first ones, some of them in envelopes, with skipped records between them. -/
inductive Wrapped : List Value → List Value → Prop
  | nil : Wrapped [] []
  | bare {d : Value} {ds vs : List Value} : Record.Bare d → Wrapped ds vs → Wrapped (d :: ds) (d :: vs)
  | enveloped {d v : Value} {ds vs : List Value} : Record.Bare d → v.get? "reason" = some (.text "compiler-message") →
      v.get? "message" = some d → Wrapped ds vs → Wrapped (d :: ds) (v :: vs)
  | inserted {v : Value} {reason : String} {ds vs : List Value} : v.get? "reason" = some (.text reason) →
      reason ≠ "compiler-message" → Wrapped ds vs → Wrapped ds (v :: vs)

/-! ## Values -/

/-- A diagnostic in an envelope is read as if bare. -/
theorem ofJson_envelope {d v : Value} (hreason : v.get? "reason" = some (.text "compiler-message"))
    (hmessage : v.get? "message" = some d) : Record.ofJson v = .diagnostic d := by
  rw [Record.ofJson_of_reason hreason, if_pos rfl, hmessage]
  rfl

/-- The second values give what the first ones give, with skipped records that count before an error. -/
structure GivesAlso (ds vs : List Value) : Prop where
  ok : ∀ ms, ofValues ds = .ok ms → ofValues vs = .ok ms
  error : ∀ i m, ofValues ds = .error (i, m) → ∃ j, ofValues vs = .error (j, m) ∧ j = i + (vs.take j).countP skips

/-- Both lists go on with the same diagnostic. -/
theorem GivesAlso.cons {d v : Value} {ds vs : List Value} (hd : Record.ofJson d = .diagnostic d)
    (hv : Record.ofJson v = .diagnostic d) (h : GivesAlso ds vs) : GivesAlso (d :: ds) (v :: vs) := by
  have hskips : skips v = false := by rw [skips, hv]
  have hrecord : ofRecord v = ofRecord d := by rw [ofRecord, ofRecord, hv, hd]
  cases hx : ofRecord d with
  | error m =>
    rw [hx] at hrecord
    refine ⟨fun ms hms => ?_, fun i m' hm' => ⟨0, ?_, ?_⟩⟩
    · rw [ofValues_cons_error hx] at hms; cases hms
    · rw [ofValues_cons_error hx] at hm'; cases hm'; exact ofValues_cons_error hrecord vs
    · rw [ofValues_cons_error hx] at hm'; cases hm'; rfl
  | ok x =>
    rw [hx] at hrecord
    cases hds : ofValues ds with
    | ok ms =>
      refine ⟨fun ms' hms => ?_, fun i m hm => ?_⟩
      · rw [ofValues_cons_ok hx, hds] at hms
        rw [ofValues_cons_ok hrecord, h.ok ms hds]
        exact hms
      · rw [ofValues_cons_ok hx, hds] at hm; cases hm
    | error p =>
      obtain ⟨i, m⟩ := p
      obtain ⟨j, hj, hcount⟩ := h.error i m hds
      refine ⟨fun ms hms => ?_, fun i' m' hm => ⟨j + 1, ?_, ?_⟩⟩
      · rw [ofValues_cons_ok hx, hds] at hms; cases hms
      · rw [ofValues_cons_ok hx, hds] at hm; cases hm
        rw [ofValues_cons_ok hrecord, hj]
      · rw [ofValues_cons_ok hx, hds] at hm; cases hm
        rw [List.take_succ_cons, List.countP_cons_of_neg (by simp [hskips])]
        omega

/-- A skipped record counts, and does nothing else. -/
theorem GivesAlso.insert {v : Value} {reason : String} {ds vs : List Value} (hv : Record.ofJson v = .skipped reason)
    (h : GivesAlso ds vs) : GivesAlso ds (v :: vs) := by
  have hskips : skips v = true := by rw [skips, hv]
  have hrecord : ofRecord v = .ok none := by rw [ofRecord, hv]
  refine ⟨fun ms hms => ?_, fun i m hm => ?_⟩
  · rw [ofValues_cons_ok hrecord, h.ok ms hms]
    rfl
  · obtain ⟨j, hj, hcount⟩ := h.error i m hm
    refine ⟨j + 1, by rw [ofValues_cons_ok hrecord, hj], ?_⟩
    rw [List.take_succ_cons, List.countP_cons_of_pos hskips]
    omega

theorem Wrapped.givesAlso {ds vs : List Value} (h : Wrapped ds vs) : GivesAlso ds vs := by
  induction h with
  | nil => exact ⟨fun _ hms => hms, fun _ _ hm => nomatch hm⟩
  | bare hd _ ih => exact ih.cons (Record.ofJson_of_bare hd) (Record.ofJson_of_bare hd)
  | enveloped hd hreason hmessage _ ih =>
    exact ih.cons (Record.ofJson_of_bare hd) (ofJson_envelope hreason hmessage)
  | inserted hreason hne _ ih => exact ih.insert (by rw [Record.ofJson_of_reason hreason, if_neg hne])

/-! ## Texts -/

/-- **Envelopes do not show.** A text whose values are those of another one, some of them in envelopes and with skipped
records between them, gives the same messages; and if the other text is refused, so is this one, for the same reason, at
the record that many later as skipped ones come before it. -/
theorem ofText_wrapped {s s' : String} {ds vs : List Value} (hs : SpellsStream s.toList ds)
    (hs' : SpellsStream s'.toList vs) (h : Wrapped ds vs) :
    (∀ ms, (ofText s).result = .ok ms → (ofText s').result = .ok ms) ∧
      ∀ e, (ofText s).result = .error e → ∃ e' r n, (ofText s').result = .error e' ∧ e.record? = some r ∧
        e'.record? = some (r + n) ∧ n = (vs.take (r + n - 1)).countP skips ∧ e'.source = e.source := by
  refine ⟨fun ms hms => ?_, fun e he => ?_⟩
  · have hvalues := (ofText_eq_ok_iff_ofValues hs).mp hms
    exact (ofText_eq_ok_iff_ofValues hs').mpr (h.givesAlso.ok ms hvalues)
  · obtain ⟨i, m, hvalues, hrecord, hsource⟩ := (ofText_eq_error_iff_ofValues hs).mp ⟨e, he, rfl, rfl⟩
    obtain ⟨j, hj, hcount⟩ := h.givesAlso.error i m hvalues
    obtain ⟨e', he', hrecord', hsource'⟩ := (ofText_eq_error_iff_ofValues hs').mpr ⟨j, m, hj, rfl, rfl⟩
    refine ⟨e', i + 1, (vs.take j).countP skips, he', hrecord, ?_, ?_, hsource'.trans hsource.symm⟩
    · rw [hrecord', Option.some_inj]
      omega
    · have hplace : i + 1 + (vs.take j).countP skips - 1 = j := by omega
      rw [hplace]

/-- A note, and an empty list that is no diagnostic: a skipped record before them and an envelope around the note move
the error by one record. -/
theorem ofText_wrapped_note :
    (ofText "[\"m\",null,\"note\"][]").result = .error (.malformed 2 17 (.mismatch (.tooShort 0 .diagnostic))) ∧
      ∃ e, (ofText
        "\x7b\"reason\":\"r\"\x7d\x7b\"reason\":\"compiler-message\",\"message\":[\"m\",null,\"note\"]\x7d[]").result =
          .error e ∧
        e.record? = some 3 ∧ e.source = (Mismatch.tooShort 0 .diagnostic).text := by
  have hbare : SpellsStream "[\"m\",null,\"note\"][]".toList [.list [.text "m", .null, .text "note"], .list []] :=
    Json.Stream.values?_ofText_iff.mp rfl
  have henvelope : SpellsStream
      "\x7b\"reason\":\"r\"\x7d\x7b\"reason\":\"compiler-message\",\"message\":[\"m\",null,\"note\"]\x7d[]".toList
      [.object [("reason", .text "r")],
        .object [("message", .list [.text "m", .null, .text "note"]), ("reason", .text "compiler-message")],
        .list []] :=
    Json.Stream.values?_ofText_iff.mp rfl
  obtain ⟨e, r, n, he, -, -, -, hsource⟩ := (ofText_wrapped hbare henvelope
    (.inserted rfl (by decide) (.enveloped (fun _ => nofun) rfl rfl (.bare (fun _ => nofun) .nil)))).2 _ rfl
  obtain rfl := Except.error.inj (he.symm.trans rfl)
  exact ⟨rfl, _, he, rfl, hsource⟩

end Message

end Pinpoint
