import Pinpoint.Proofs.Message.Records

/-!
# Texts joined and cut

A text that is accepted can stand in front of any other one: the messages of both are the messages of the first one and
then those of the second one, and an error of the second one stays that error, further on. Conversely a text that is
refused can be cut where its error says, into a text that is accepted and one that is refused at once.
-/

namespace Pinpoint.Message

open Json (Value Stream)
open Json.Machine (idle)

/-! ## Joined texts -/

/-- An accepted text in front of another one is read as if alone. -/
theorem result_ofText_append {a : String} {vs : List Value} {ms : List Message}
    (hvs : (Stream.ofText a).values? = some vs) (hg : Gives vs ms) (b : String) :
    (ofText (a ++ b)).result =
      ((ofRecords vs.length (Stream.run idle (Stream.contentSize a) (Json.Place.origin.afterAll a.toList)
        b.toList)).result.map fun (ns, _) => ms ++ ns) := by
  have hjoin : Stream.ofText (a ++ b) = (Stream.ofText a).follow fun stop =>
      Stream.run idle stop (Json.Place.origin.afterAll a.toList) b.toList := by
    rw [Stream.ofText, String.toList_append]
    exact Stream.run_append Json.holds_idle a.toList b.toList hvs hg.isLoose
  rw [result_ofText, hjoin, ofRecords_follow hvs hg, Stream.stop_ofText hvs hg.isLoose, Nat.zero_add]
  cases (ofRecords vs.length _).result <;> rfl

/-- **Texts one after another.** An accepted text, the last value of which ends where the space at its end begins, gives
its messages before those of a text that follows it, without anything between them. Where that text is refused, both
together are: at the record that many records later, for a flaw of the same category. The offset of that record is
further on by the size of the accepted text, unless it is the first record of the other text, which starts where the
last value of the accepted one ends. -/
theorem ofText_append {a b : String} {ms : List Message} (ha : (ofText a).result = .ok ms) :
    (Stream.ofText a).stop = Stream.contentSize a ∧
      (∀ ns, (ofText b).result = .ok ns → (ofText (a ++ b)).result = .ok (ms ++ ns)) ∧
      ∀ r o flaw, (ofText b).result = .error (.malformed r o flaw) → ∃ flaw', flaw'.category = flaw.category ∧
        (ofText (a ++ b)).result = .error (.malformed ((Stream.ofText a).length + r)
          (if r = 1 then (Stream.ofText a).stop else a.utf8ByteSize + o) flaw') := by
  obtain ⟨vs, hvs, hg⟩ := ofText_eq_ok_iff.mp ha
  have hstop := Stream.stop_ofText hvs hg.isLoose
  have hmoved : Stream.Moved 0 a.utf8ByteSize (Stream.ofText b)
      (Stream.run idle (Stream.contentSize a) (Json.Place.origin.afterAll a.toList) b.toList) := by
    refine Stream.run_moved b.toList ?_
    rw [Json.Place.offset_afterAll, Text.utf8ByteSize_eq_bytes]
    rfl
  refine ⟨hstop, fun ns hb => ?_, fun r o flaw hb => ?_⟩
  · obtain ⟨us, hus, hgb⟩ := ofText_eq_ok_iff.mp hb
    rw [result_ofText_append hvs hg b,
      ofRecords_eq_ok_iff.mpr ⟨us, by rw [hmoved.values?]; exact hus, hgb, rfl⟩]
    rfl
  · obtain ⟨i, o', flaw', hr, hrefused, halike, hzero, hsucc⟩ := (ofText_eq_error_iff.mp hb).moved hmoved vs.length
    have hoffset : o' = if r = 1 then (Stream.ofText a).stop else a.utf8ByteSize + o := by
      split
      · next hone => rw [(hzero (by omega)).2, Stream.start_run, hstop]
      · next hone => have := hsucc (by omega); omega
    refine ⟨flaw', halike.category, ?_⟩
    rw [result_ofText_append hvs hg b, ofRecords_eq_error_iff.mpr hrefused, ← hoffset,
      Stream.length_of_values? hvs, hr, Nat.zero_add, Nat.add_assoc]
    rfl

/-- A note and space stand in front of another note, and in front of a list that does not end. -/
theorem ofText_append_note :
    (ofText ("[\"m\",null,\"note\"] " ++ "[\"n\",null,\"note\"]")).result =
        .ok [⟨"m", .info, none, none, []⟩, ⟨"n", .info, none, none, []⟩] ∧
      ∃ flaw, flaw.category = .early ∧
        (ofText ("[\"m\",null,\"note\"] " ++ "[")).result = .error (.malformed 2 17 flaw) := by
  have hnote : (ofText "[\"m\",null,\"note\"] ").result = .ok [⟨"m", .info, none, none, []⟩] := rfl
  obtain ⟨-, hnotes, -⟩ := @ofText_append _ "[\"n\",null,\"note\"]" _ hnote
  obtain ⟨-, -, hlist⟩ := @ofText_append _ "[" _ hnote
  exact ⟨hnotes [⟨"n", .info, none, none, []⟩] rfl, hlist 1 0 (.fault ⟨.endInList, 1, 1⟩) rfl⟩

/-! ## Cut texts -/

/-- The record is one that is skipped. -/
def skips (v : Value) : Bool :=
  match Record.ofJson v with
  | .skipped _ => true
  | .diagnostic _ => false

/-- A run is refused for its first record, or it can be cut where that record starts: what comes before is accepted, and
what comes after is refused for its first record. -/
theorem Refused.cut {m : Json.Machine} {w : List Char} (hm : Json.Holds m w) {start : Nat} {here : Json.Place}
    {cs : List Char} {k r o : Nat} {flaw : Flaw} (h : Refused k (Stream.run m start here cs) r o flaw) :
    r = k + 1 ∧ o = start ∨
      ∃ p q vs ms, cs = p ++ q ∧ (Stream.run m start here p).values? = some vs ∧ Gives vs ms ∧
        r = k + vs.length + 1 ∧ o = (here.afterAll p).offset ∧
        Refused (k + vs.length) (Stream.run idle o (here.afterAll p) q) r o flaw := by
  induction cs generalizing m w start here k with
  | nil =>
    rcases h.first_or_later with ⟨hr, ho⟩ | ⟨start', v, rest, x, hs, hv, -⟩
    · exact .inl ⟨hr, ho.trans (Stream.start_run m start here [])⟩
    · -- A value that the end of the text hands out is loose, and no record.
      have hfinish := hm.finish
      simp only [Stream.run, Stream.atEnd] at hs
      generalize m.finish = last at hfinish hs
      cases hfinish with
      | between _ _ => cases hs
      | value hloose _ => cases hs; exact absurd hloose (by rw [isLoose_of_ofRecord hv]; decide)
      | missing cause => cases hs
  | cons c cs ih =>
    have hfeed := hm.feed c
    cases hc : m.feed c with
    | mk ended s =>
      rw [hc] at hfeed
      cases hfeed with
      | after hloose _ _ _ =>
        rw [Stream.run_after hc] at h
        cases h with
        | mismatch _ => exact .inl ⟨rfl, rfl⟩
        | later hv _ => exact absurd hloose (by rw [isLoose_of_ofRecord hv]; decide)
      | inside hs =>
        rw [Stream.run_inside hc] at h
        have hstep : ∀ p, Stream.run m start here (c :: p) = Stream.resume s start here c p :=
          Stream.run_inside hc start here
        cases s with
        | next m' =>
          rcases ih hs h with hfirst | ⟨p, q, vs, ms, rfl, hp, hg, hr, ho, hq⟩
          · exact .inl hfirst
          · exact .inr ⟨c :: p, q, vs, ms, rfl, by rw [hstep]; exact hp, hg, hr, ho, hq⟩
        | fail t => cases h; exact .inl ⟨rfl, rfl⟩
        | value v =>
          cases h with
          | mismatch _ => exact .inl ⟨rfl, rfl⟩
          | later hv h =>
            refine .inr ?_
            rcases ih Json.holds_idle h with ⟨hr, ho⟩ | ⟨p, q, vs, ms, rfl, hp, hg, hr, ho, hq⟩
            · refine ⟨[c], cs, [v], _, rfl, by rw [hstep]; rfl, .cons hv .nil, hr, ho, ?_⟩
              subst ho
              exact h
            · have hcount : k + (v :: vs).length = k + 1 + vs.length := by rw [List.length_cons]; omega
              have hvalues : (Stream.run m start here (c :: p)).values? = some (v :: vs) := by
                rw [hstep]
                exact Stream.values?_value.mpr ⟨vs, hp, rfl⟩
              rw [← hcount] at hr hq
              exact ⟨c :: p, q, v :: vs, _, rfl, hvalues, .cons hv hg, hr, ho, hq⟩

/-- Skipped records and messages make up all the records. -/
theorem Gives.length {vs : List Value} {ms : List Message} (h : Gives vs ms) :
    ms.length + vs.countP skips = vs.length := by
  induction h with
  | nil => rfl
  | @cons v x vs ms hx _ ih =>
    rw [List.countP_cons, List.length_append, List.length_cons]
    rcases ofRecord_eq_ok_iff.mp hx with ⟨reason, hv, rfl⟩ | ⟨w, d, hv, -, rfl⟩
    · simp only [skips, hv, Option.toList_none, List.length_nil, if_true]
      omega
    · simp only [skips, hv, Option.toList_some, List.length_singleton, Bool.false_eq_true, if_false]
      omega

/-- **Errors are local.** The offset of an error cuts the text in two. What stands before it is accepted, and its
records, read or skipped, are those that the number of the record at fault counts before it. What stands after it is
refused for its own first record, at its start: for a flaw of the same category, and of the same text for a record that
is JSON but no diagnostic. -/
theorem ofText_malformed {s : String} {r o : Nat} {flaw : Flaw}
    (h : (ofText s).result = .error (.malformed r o flaw)) :
    o ≤ s.utf8ByteSize ∧ ∃ before after vs ms flaw', s = before ++ after ∧ before.utf8ByteSize = o ∧
      ((ofText before).result = .ok ms ∧ (Stream.ofText before).values? = some vs ∧ vs.length + 1 = r ∧
        ms.length + vs.countP skips = vs.length) ∧
      (ofText after).result = .error (.malformed 1 0 flaw') ∧ flaw'.category = flaw.category ∧
        (flaw.category = .mismatch → flaw'.text = flaw.text) := by
  rcases (ofText_eq_error_iff.mp h).cut Json.holds_idle with ⟨rfl, rfl⟩ | ⟨p, q, vs, ms, hs, hp, hg, hr, ho, hq⟩
  · exact ⟨Nat.zero_le _, "", s, [], [], flaw, String.empty_append.symm, rfl, ⟨rfl, rfl, rfl, rfl⟩, h, rfl,
      fun _ => rfl⟩
  have hoffset : o = Text.bytes p := by rw [ho, Json.Place.offset_afterAll]; exact Nat.zero_add _
  have hjoin : s = String.ofList p ++ String.ofList q := by
    rw [← String.ofList_append, ← hs, String.ofList_toList]
  have hmoved : Stream.Moved o 0 (Stream.run idle o (Json.Place.origin.afterAll p) q)
      (Stream.ofText (String.ofList q)) := by
    rw [Stream.ofText, String.toList_ofList]
    exact Stream.run_moved q (by rw [← ho]; exact Nat.zero_add o)
  obtain ⟨i, o', flaw', hi, hrefused, halike, hzero, -⟩ := hq.moved hmoved 0
  obtain rfl : i = 0 := by omega
  obtain rfl : o' = 0 := (hzero rfl).2.trans (Stream.start_run _ _ _ _)
  have hvs : (Stream.ofText (String.ofList p)).values? = some vs := by
    rw [Stream.ofText, String.toList_ofList]
    exact hp
  refine ⟨?_, String.ofList p, String.ofList q, vs, ms, flaw', hjoin, ?_, ?_, ?_, halike.category, halike.text⟩
  · rw [hjoin, String.utf8ByteSize_append, Text.utf8ByteSize_ofList, hoffset]
    exact Nat.le_add_right _ _
  · rw [Text.utf8ByteSize_ofList, hoffset]
  · exact ⟨ofText_eq_ok_iff.mpr ⟨vs, hvs, hg⟩, hvs, by omega, hg.length⟩
  · exact ofText_eq_error_iff.mpr hrefused

/-- A note, a skipped record and a number. -/
theorem ofText_malformed_number : ∃ before after flaw,
    "[\"m\",null,\"note\"]\x7b\"reason\":\"x\"\x7d7" = before ++ after ∧ before.utf8ByteSize = 31 ∧
      (ofText after).result = .error (.malformed 1 0 flaw) ∧ flaw.category = .mismatch ∧
      flaw.text = (Mismatch.wrongType (.number (.natural 7)) (.shape .diagnostic)).text := by
  obtain ⟨-, before, after, vs, ms, flaw, hs, hsize, -, hafter, hcategory, htext⟩ :=
    @ofText_malformed "[\"m\",null,\"note\"]\x7b\"reason\":\"x\"\x7d7" 3 31
      (.mismatch (.wrongType (.number (.natural 7)) (.shape .diagnostic))) rfl
  exact ⟨before, after, flaw, hs, hsize, hafter, hcategory, htext rfl⟩

end Pinpoint.Message
