import Pinpoint.Proofs.Message.Concatenation
import Pinpoint.Proofs.Message.Values

/-!
# What a text begins with

A text that begins with a stream is refused for the first value of that stream that is no record, whatever comes after
it (`refused_of_begins`). Where all values of the stream are records, what comes after it decides, and that comes to the
same after any other stream of as many records (`ofText_exchange`).
-/

namespace Pinpoint.Message

open Json (Value Stream SpellsStream)
open Json.Machine (isDelimiter)

/-! ## Values one after another -/

section Values

variable {us vs : List Value} {ms : List Message} {i : Nat} {m : Mismatch}

/-- Values give their messages if none of them is refused. -/
theorem gives_iff_ofValues : Gives vs ms ↔ ofValues vs = .ok ms := by
  induction vs generalizing ms with
  | nil =>
    constructor
    · intro h; cases h; rfl
    · intro h; cases h; exact .nil
  | cons v vs ih =>
    constructor
    · intro h
      cases h with
      | cons hx hg => rw [ofValues_cons_ok hx, ih.mp hg]
    · intro h
      cases hx : ofRecord v with
      | error m => rw [ofValues_cons_error hx] at h; cases h
      | ok x =>
        rw [ofValues_cons_ok hx] at h
        cases hvs : ofValues vs with
        | error p => rw [hvs] at h; cases h
        | ok ns => rw [hvs] at h; cases h; exact .cons hx (ih.mpr hvs)

/-- What comes after a value that is refused is not looked at. -/
theorem ofValues_append_error (h : ofValues us = .error (i, m)) (vs : List Value) :
    ofValues (us ++ vs) = .error (i, m) := by
  induction us generalizing i with
  | nil => cases h
  | cons u us ih =>
    rw [List.cons_append]
    cases hx : ofRecord u with
    | error m' => rw [ofValues_cons_error hx] at h ⊢; exact h
    | ok x =>
      rw [ofValues_cons_ok hx] at h ⊢
      cases hus : ofValues us with
      | ok ns => rw [hus] at h; cases h
      | error p => rw [hus] at h; cases h; rw [ih hus]

/-- After values that are accepted the next one decides. -/
theorem ofValues_append_singleton (h : Gives us ms) (v : Value) :
    ofValues (us ++ [v]) =
      match ofRecord v with
      | .error m => .error (us.length, m)
      | .ok x => .ok (ms ++ x.toList) := by
  induction h with
  | nil => cases hx : ofRecord v <;> simp [ofValues, hx]
  | cons hx _ ih =>
    rw [List.cons_append, ofValues_cons_ok hx, ih]
    cases ofRecord v <;> simp

/-- The value that is refused is one of them. -/
theorem lt_length_of_ofValues (h : ofValues vs = .error (i, m)) : i < vs.length := by
  induction vs generalizing i with
  | nil => cases h
  | cons v vs ih =>
    rw [List.length_cons]
    cases hx : ofRecord v with
    | error m' =>
      rw [ofValues_cons_error hx] at h
      cases h
      omega
    | ok x =>
      rw [ofValues_cons_ok hx] at h
      cases hvs : ofValues vs with
      | ok ns => rw [hvs] at h; cases h
      | error p =>
        rw [hvs] at h
        cases h
        have hlt := ih hvs
        omega

end Values

/-! ## Streams -/

/-- A stream that is refused for one of its values is refused for it also in front of another one. -/
theorem refused_follow {s : Stream} {vs : List Value} {i : Nat} {m : Mismatch} (hvs : s.values? = some vs)
    (h : ofValues vs = .error (i, m)) (k : Nat) (next : Nat → Stream) :
    ∃ o, Refused k (s.follow next) (k + i + 1) o (.mismatch m) := by
  induction s generalizing vs i k with
  | finished stop => cases hvs; cases h
  | broken start fault => cases hvs
  | value start v rest ih =>
    obtain ⟨us, hus, rfl⟩ := Stream.values?_value.mp hvs
    cases hx : ofRecord v with
    | error m' =>
      rw [ofValues_cons_error hx] at h
      cases h
      exact ⟨start, .mismatch hx⟩
    | ok x =>
      rw [ofValues_cons_ok hx] at h
      cases hvalues : ofValues us with
      | ok ns => rw [hvalues] at h; cases h
      | error p =>
        rw [hvalues] at h
        cases h
        obtain ⟨o, ho⟩ := ih hus hvalues (k + 1)
        rw [Nat.add_right_comm k 1 p.1] at ho
        exact ⟨o, .later hx ho⟩

/-- Records are refused for nothing but what they are. -/
theorem exists_refused {s : Stream} {k : Nat} {e : ParseError} (h : (ofRecords k s).result = .error e) :
    ∃ r o flaw, e = .malformed r o flaw ∧ Refused k s r o flaw := by
  suffices hmalformed : ∃ r o flaw, e = .malformed r o flaw by
    obtain ⟨r, o, flaw, rfl⟩ := hmalformed
    exact ⟨r, o, flaw, rfl, ofRecords_eq_error_iff.mp h⟩
  induction s generalizing k e with
  | finished stop => cases h
  | broken start fault => cases h; exact ⟨_, _, _, rfl⟩
  | value start v rest ih =>
    rw [result_ofRecords_value] at h
    cases hx : ofRecord v with
    | error m => rw [hx] at h; cases h; exact ⟨_, _, _, rfl⟩
    | ok x =>
      rw [hx] at h
      cases hrest : (ofRecords (k + 1) rest).result with
      | ok p => rw [hrest] at h; cases h
      | error e' => rw [hrest] at h; cases h; exact ih hrest

/-- **Streams that differ in places alone come to the same**: to the same messages, or to errors at the same record and
of the same category. -/
theorem ofRecords_moved {a b k : Nat} {s t : Stream} (h : Stream.Moved a b s t) :
    (∀ ms n, (ofRecords k s).result = .ok (ms, n) → (ofRecords k t).result = .ok (ms, n)) ∧
      ∀ e, (ofRecords k s).result = .error e → ∃ r o flaw o' flaw', e = .malformed r o flaw ∧
        (ofRecords k t).result = .error (.malformed r o' flaw') ∧ flaw'.category = flaw.category := by
  constructor
  · intro ms n hs
    obtain ⟨vs, hvs, hg, hn⟩ := ofRecords_eq_ok_iff.mp hs
    exact ofRecords_eq_ok_iff.mpr ⟨vs, h.values?.trans hvs, hg, hn⟩
  · intro e he
    obtain ⟨r, o, flaw, rfl, hrefused⟩ := exists_refused he
    obtain ⟨i, o', flaw', rfl, hmoved, halike, -⟩ := hrefused.moved h k
    exact ⟨_, o, flaw, o', flaw', rfl, ofRecords_eq_error_iff.mpr hmoved, halike.category⟩

/-! ## Texts -/

/-- **A text that begins with a value that is no record is refused for it**, or for another one before it. -/
theorem refused_of_begins {p q : String} {vs : List Value} {i : Nat} {m : Mismatch} (hp : SpellsStream p.toList vs)
    (hq : ∀ v ∈ vs.getLast?, v.isLoose = true → ∀ c ∈ q.toList.head?, isDelimiter c = true)
    (h : ofValues vs = .error (i, m)) :
    ∃ o, (ofText (p ++ q)).result = .error (.malformed (i + 1) o (.mismatch m)) := by
  have hjoin := Stream.run_follow hp hq 0 .origin
  obtain ⟨o, ho⟩ := refused_follow (Stream.values?_ofText_iff.mpr hp) h 0 fun stop =>
    Stream.run .idle stop (Json.Place.origin.afterAll p.toList) q.toList
  rw [Nat.zero_add] at ho
  refine ⟨o, ofText_eq_error_iff.mpr ?_⟩
  rw [Stream.ofText, String.toList_append, hjoin]
  exact ho

/-- A text that begins with records is refused for none of them. -/
theorem lt_of_begins {p q : String} {vs : List Value} {ms : List Message} {r o : Nat} {flaw : Flaw}
    (hp : SpellsStream p.toList vs) (hg : Gives vs ms) (h : (ofText (p ++ q)).result = .error (.malformed r o flaw)) :
    vs.length < r := by
  rw [result_ofText_append (Stream.values?_ofText_iff.mpr hp) hg q] at h
  generalize Stream.run .idle (Stream.contentSize p) (Json.Place.origin.afterAll p.toList) q.toList = s at h
  cases hs : (ofRecords vs.length s).result with
  | ok pair => rw [hs] at h; cases h
  | error e =>
    rw [hs] at h
    cases h
    exact (ofRecords_eq_error_iff.mp hs).lt

/-- **Of the records before it a text depends on nothing but their number.** Behind streams of as many records it gives
the same messages, or is refused at the same record and for a flaw of the same category. -/
theorem ofText_exchange {p p' q : String} {vs vs' : List Value} {ms ms' : List Message}
    (hp : SpellsStream p.toList vs) (hp' : SpellsStream p'.toList vs') (hg : Gives vs ms) (hg' : Gives vs' ms')
    (hlength : vs'.length = vs.length) :
    (∀ ns, (ofText (p ++ q)).result = .ok ns →
        ∃ after, ns = ms ++ after ∧ (ofText (p' ++ q)).result = .ok (ms' ++ after)) ∧
      ∀ e, (ofText (p ++ q)).result = .error e → ∃ r o flaw o' flaw', e = .malformed r o flaw ∧
        (ofText (p' ++ q)).result = .error (.malformed r o' flaw') ∧ flaw'.category = flaw.category := by
  have hmoved : Stream.Moved (Text.bytes p.toList) (Text.bytes p'.toList)
      (Stream.run .idle (Stream.contentSize p) (Json.Place.origin.afterAll p.toList) q.toList)
      (Stream.run .idle (Stream.contentSize p') (Json.Place.origin.afterAll p'.toList) q.toList) := by
    apply Stream.run_moved
    rw [Json.Place.offset_afterAll, Json.Place.offset_afterAll]
    omega
  rw [result_ofText_append (Stream.values?_ofText_iff.mpr hp) hg q,
    result_ofText_append (Stream.values?_ofText_iff.mpr hp') hg' q, hlength]
  generalize Stream.run .idle (Stream.contentSize p) (Json.Place.origin.afterAll p.toList) q.toList = s,
    Stream.run .idle (Stream.contentSize p') (Json.Place.origin.afterAll p'.toList) q.toList = t at hmoved
  obtain ⟨hok, herror⟩ := ofRecords_moved (k := vs.length) hmoved
  cases hs : (ofRecords vs.length s).result with
  | ok pair =>
    obtain ⟨after, n⟩ := pair
    rw [hok after n hs]
    constructor
    · intro ns hns
      cases hns
      exact ⟨after, rfl, rfl⟩
    · intro e he
      cases he
  | error e =>
    obtain ⟨r, o, flaw, o', flaw', rfl, ht, hcategory⟩ := herror e hs
    rw [ht]
    constructor
    · intro ns hns
      cases hns
    · intro e he
      cases he
      exact ⟨r, o, flaw, o', flaw', rfl, rfl, hcategory⟩

end Pinpoint.Message
