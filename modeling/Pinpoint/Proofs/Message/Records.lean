import Pinpoint.Message.OfStream
import Pinpoint.Proofs.Json.Runs

/-!
# Records one after another

A stream is accepted if it has no fault and each of its values is a record; `Gives vs ms` says that the values `vs` are
records and `ms` their messages (`ofRecords_eq_ok_iff`). Otherwise it is refused for its first fault or mismatch
(`Refused`, `ofRecords_eq_error_iff`). Offsets only show in errors: streams that differ in places alone are refused for
the same flaw (`Refused.moved`), and what follows an accepted stream is read as if alone (`ofRecords_follow`).
-/

namespace Pinpoint.Message

open Json (Value Stream)

/-! ## Single records -/

/-- The message of a record, if it is not skipped. -/
def ofRecord (v : Value) : Except Mismatch (Option Message) :=
  match Record.ofJson v with
  | .skipped _ => .ok none
  | .diagnostic w => (some ∘ ofDiagnostic) <$> Diagnostic.ofJson w

/-- A record is accepted if it is skipped, or a diagnostic. -/
theorem ofRecord_eq_ok_iff {v : Value} {x : Option Message} :
    ofRecord v = .ok x ↔ (∃ reason, Record.ofJson v = .skipped reason ∧ x = none) ∨
      ∃ w d, Record.ofJson v = .diagnostic w ∧ Diagnostic.ofJson w = .ok d ∧ x = some (ofDiagnostic d) := by
  unfold ofRecord
  cases Record.ofJson v with
  | skipped reason => simp [eq_comm]
  | diagnostic w =>
    cases hd : Diagnostic.ofJson w with
    | error m => simp [hd]
    | ok d => simp [hd, eq_comm]

/-- A record is refused, or it gives its message before those of the records after it. -/
theorem result_ofRecords_value (k start : Nat) (v : Value) (rest : Stream) :
    (ofRecords k (.value start v rest)).result =
      match ofRecord v with
      | .error m => .error (.malformed (k + 1) start (.mismatch m))
      | .ok x => (ofRecords (k + 1) rest).result.map fun (ms, n) => (x.toList ++ ms, n) := by
  simp only [ofRecords, ofRecord]
  cases Record.ofJson v with
  | skipped reason => cases h : (ofRecords (k + 1) rest).result <;> simp [Logged.prepend, h, Except.map]
  | diagnostic w => cases hd : Diagnostic.ofJson w <;> simp only [hd] <;> rfl

/-- A record is a container or a text. -/
theorem isLoose_of_ofRecord {v : Value} {x : Option Message} (h : ofRecord v = .ok x) : v.isLoose = false := by
  cases v with
  | null | bool _ | number _ => cases h
  | text _ | list _ | object _ => rfl

/-! ## Accepted streams -/

/-- The values are records and these are their messages. -/
inductive Gives : List Value → List Message → Prop
  | nil : Gives [] []
  | cons {v : Value} {x : Option Message} {vs : List Value} {ms : List Message} : ofRecord v = .ok x → Gives vs ms →
      Gives (v :: vs) (x.toList ++ ms)

theorem Gives.isLoose {vs : List Value} {ms : List Message} (h : Gives vs ms) : ∀ v ∈ vs, v.isLoose = false := by
  induction h with
  | nil => intro v hv; cases hv
  | cons hx _ ih =>
    intro u hu
    rcases List.mem_cons.mp hu with rfl | hu
    · exact isLoose_of_ofRecord hx
    · exact ih u hu

/-- A stream is accepted if it has no fault and its values are records. -/
theorem ofRecords_eq_ok_iff {s : Stream} {k n : Nat} {ms : List Message} :
    (ofRecords k s).result = .ok (ms, n) ↔ ∃ vs, s.values? = some vs ∧ Gives vs ms ∧ n = k + vs.length := by
  induction s generalizing k n ms with
  | finished stop =>
    constructor
    · intro h
      cases h
      exact ⟨[], rfl, .nil, rfl⟩
    · rintro ⟨vs, hvs, hg, rfl⟩
      cases hvs
      cases hg
      rfl
  | broken start fault =>
    constructor
    · intro h; cases h
    · rintro ⟨vs, hvs, -⟩; cases hvs
  | value start v rest ih =>
    rw [result_ofRecords_value]
    constructor
    · intro h
      cases hv : ofRecord v with
      | error m => rw [hv] at h; cases h
      | ok x =>
        rw [hv] at h
        cases hrest : (ofRecords (k + 1) rest).result with
        | error e => rw [hrest] at h; cases h
        | ok p =>
          obtain ⟨ms', n'⟩ := p
          rw [hrest] at h
          obtain ⟨vs, hvs, hg, hn⟩ := ih.mp hrest
          cases h
          exact ⟨v :: vs, Stream.values?_value.mpr ⟨vs, hvs, rfl⟩, .cons hv hg, by rw [List.length_cons]; omega⟩
    · rintro ⟨vs, hvs, hg, rfl⟩
      obtain ⟨us, hus, rfl⟩ := Stream.values?_value.mp hvs
      cases hg with
      | cons hx hg =>
        have hrest := (@ih (k + 1) _ _).mpr ⟨us, hus, hg, rfl⟩
        rw [hx, hrest, List.length_cons, Nat.add_comm us.length 1, ← Nat.add_assoc]
        rfl

/-- What follows an accepted stream gives its messages, or its error, after it. -/
theorem ofRecords_follow {s : Stream} {k : Nat} {vs : List Value} {ms : List Message} (hvs : s.values? = some vs)
    (hg : Gives vs ms) (next : Nat → Stream) :
    (ofRecords k (s.follow next)).result =
      (ofRecords (k + vs.length) (next s.stop)).result.map fun (ms', n) => (ms ++ ms', n) := by
  induction s generalizing k vs ms with
  | finished stop =>
    cases hvs
    cases hg
    cases h : (ofRecords k (next stop)).result <;> simp [Stream.follow, Stream.stop, h, Except.map]
  | broken start fault => cases hvs
  | value start v rest ih =>
    obtain ⟨us, hus, rfl⟩ := Stream.values?_value.mp hvs
    cases hg with
    | cons hx hg =>
      simp only [Stream.follow, Stream.stop]
      rw [result_ofRecords_value, hx]
      simp only
      rw [ih hus hg, List.length_cons, Nat.add_comm us.length 1, ← Nat.add_assoc]
      cases (ofRecords (k + 1 + us.length) (next rest.stop)).result <;> simp [Except.map]

/-! ## Refused streams -/

/-- The records after the first `k` are refused: which record it is for, where it starts, and the flaw. -/
inductive Refused : Nat → Stream → Nat → Nat → Flaw → Prop
  | fault {k o : Nat} {f : Json.Fault} : Refused k (.broken o f) (k + 1) o (.fault f)
  | mismatch {k o : Nat} {v : Value} {rest : Stream} {m : Mismatch} : ofRecord v = .error m →
      Refused k (.value o v rest) (k + 1) o (.mismatch m)
  | later {k start r o : Nat} {v : Value} {rest : Stream} {x : Option Message} {flaw : Flaw} : ofRecord v = .ok x →
      Refused (k + 1) rest r o flaw → Refused k (.value start v rest) r o flaw

/-- What is refused is a record after the first `k`. -/
theorem Refused.lt {k r o : Nat} {s : Stream} {flaw : Flaw} (h : Refused k s r o flaw) : k < r := by
  induction h with
  | fault => exact Nat.lt_succ_self _
  | mismatch _ => exact Nat.lt_succ_self _
  | later _ _ ih => omega

/-- A stream is refused for its first fault or mismatch. -/
theorem ofRecords_eq_error_iff {s : Stream} {k r o : Nat} {flaw : Flaw} :
    (ofRecords k s).result = .error (.malformed r o flaw) ↔ Refused k s r o flaw := by
  induction s generalizing k with
  | finished stop =>
    constructor
    · intro h; cases h
    · intro h; cases h
  | broken start fault =>
    constructor
    · intro h; cases h; exact .fault
    · intro h; cases h; rfl
  | value start v rest ih =>
    rw [result_ofRecords_value]
    cases hv : ofRecord v with
    | error m =>
      constructor
      · intro h
        cases h
        exact .mismatch hv
      · intro h
        cases h with
        | mismatch hv' => rw [hv] at hv'; cases hv'; rfl
        | later hv' _ => rw [hv] at hv'; cases hv'
    | ok x =>
      constructor
      · intro h
        cases hrest : (ofRecords (k + 1) rest).result with
        | error e => rw [hrest] at h; cases h; exact .later hv (ih.mp hrest)
        | ok p => rw [hrest] at h; cases h
      · intro h
        cases h with
        | mismatch hv' => rw [hv] at hv'; cases hv'
        | later _ hrest => rw [ih.mpr hrest]; rfl

/-- A stream is refused for its first record, or its first record is accepted. -/
theorem Refused.first_or_later {s : Stream} {k r o : Nat} {flaw : Flaw} (h : Refused k s r o flaw) :
    r = k + 1 ∧ o = s.start ∨
      ∃ start v rest x, s = .value start v rest ∧ ofRecord v = .ok x ∧ Refused (k + 1) rest r o flaw := by
  cases h with
  | fault => exact .inl ⟨rfl, rfl⟩
  | mismatch _ => exact .inl ⟨rfl, rfl⟩
  | later hv h => exact .inr ⟨_, _, _, _, rfl, hv, h⟩

/-- The same flaw, but for the place where a fault shows. -/
inductive Alike : Flaw → Flaw → Prop
  | fault {f g : Json.Fault} : f.cause = g.cause → Alike (.fault f) (.fault g)
  | mismatch (m : Mismatch) : Alike (.mismatch m) (.mismatch m)

theorem Alike.category {f g : Flaw} (h : Alike f g) : g.category = f.category := by
  cases h with
  | fault hc => simp only [Flaw.category, hc]
  | mismatch m => rfl

/-- A mismatch has the same text wherever it is. -/
theorem Alike.text {f g : Flaw} (h : Alike f g) (hf : f.category = .mismatch) : g.text = f.text := by
  cases h with
  | @fault f g _ =>
    simp only [Flaw.category] at hf
    split at hf <;> cases hf
  | mismatch m => rfl

/-- **Streams that differ in places alone are refused alike**: at the same record, the offsets of which are the starts
of the streams for their first records. -/
theorem Refused.moved {a b k r o : Nat} {s : Stream} {flaw : Flaw} (h : Refused k s r o flaw) {t : Stream}
    (hm : Stream.Moved a b s t) (k' : Nat) :
    ∃ i o' flaw', r = k + i + 1 ∧ Refused k' t (k' + i + 1) o' flaw' ∧ Alike flaw flaw' ∧
      (i = 0 → o = s.start ∧ o' = t.start) ∧ (i ≠ 0 → o' + a = o + b) := by
  induction h generalizing t k' with
  | fault =>
    cases hm with
    | broken s t hc => exact ⟨0, t, _, rfl, .fault, .fault hc, fun _ => ⟨rfl, rfl⟩, fun h => absurd rfl h⟩
  | @mismatch k o v rest m hv =>
    cases hm with
    | value s t v _ _ =>
      exact ⟨0, t, _, rfl, .mismatch hv, .mismatch m, fun _ => ⟨rfl, rfl⟩, fun h => absurd rfl h⟩
  | later hv _ ih =>
    cases hm with
    | value s t v hm hstart =>
      obtain ⟨i, o', flaw', hr, ht, halike, hzero, hsucc⟩ := ih hm (k' + 1)
      rw [Nat.add_right_comm k' 1 i] at ht
      refine ⟨i + 1, o', flaw', by omega, .later hv ht, halike, fun h => absurd h (Nat.succ_ne_zero i), fun _ => ?_⟩
      by_cases hi : i = 0
      · obtain ⟨rfl, rfl⟩ := hzero hi
        exact hstart
      · exact hsucc hi

/-! ## Texts -/

/-- A text gives the messages of its records, or their error. -/
theorem result_ofText (s : String) : (ofText s).result = (ofRecords 0 (Stream.ofText s)).result.map Prod.fst := by
  simp only [ofText, ofStream]
  cases (ofRecords 0 (Stream.ofText s)).result <;> rfl

/-- A text is accepted if its stream is. -/
theorem ofText_eq_ok_iff {s : String} {ms : List Message} :
    (ofText s).result = .ok ms ↔ ∃ vs, (Stream.ofText s).values? = some vs ∧ Gives vs ms := by
  rw [result_ofText]
  constructor
  · intro h
    cases hrecords : (ofRecords 0 (Stream.ofText s)).result with
    | error e => rw [hrecords] at h; cases h
    | ok p =>
      obtain ⟨ms', n⟩ := p
      rw [hrecords] at h
      cases h
      obtain ⟨vs, hvs, hg, -⟩ := ofRecords_eq_ok_iff.mp hrecords
      exact ⟨vs, hvs, hg⟩
  · rintro ⟨vs, hvs, hg⟩
    rw [ofRecords_eq_ok_iff.mpr ⟨vs, hvs, hg, rfl⟩]
    rfl

/-- A text is refused if its stream is. -/
theorem ofText_eq_error_iff {s : String} {r o : Nat} {flaw : Flaw} :
    (ofText s).result = .error (.malformed r o flaw) ↔ Refused 0 (Stream.ofText s) r o flaw := by
  rw [result_ofText, ← ofRecords_eq_error_iff]
  cases (ofRecords 0 (Stream.ofText s)).result with
  | error e => simp [Except.map]
  | ok p => simp [Except.map]

end Pinpoint.Message
