import Pinpoint.Proofs.Json.Streams
import Pinpoint.Proofs.Message.Concatenation

/-!
# Where records at fault start

The offset of an error is where the value before the record at fault ends. The record itself starts after the space that
follows there, if there is any (`ofText_offset`).
-/

namespace Pinpoint

open Json (Value Stream SpellsStream Blank)
open Json.Machine (idle isSpace)

namespace Message

/-- A run that is refused for its first record comes to that record after some space. -/
theorem Refused.skip {k o start : Nat} {here : Json.Place} {q : List Char} {flaw : Flaw}
    (h : Refused k (Stream.run idle start here q) (k + 1) o flaw) :
    ∃ b after, q = b ++ after ∧ Blank b ∧ (∃ c ∈ after.head?, isSpace c = false) ∧
      ∃ flaw', (ofText (String.ofList after)).result = .error (.malformed 1 0 flaw') ∧
        flaw'.category = flaw.category := by
  have hb : Blank (q.takeWhile isSpace) := fun c hc => List.mem_takeWhile_imp hc
  have hrun : Stream.run idle start here q =
      Stream.run idle start (here.afterAll (q.takeWhile isSpace)) (q.dropWhile isSpace) := by
    rw [← Stream.run_moves (Json.moves_blank Json.ready_idle.blank hb), List.takeWhile_append_dropWhile]
  refine ⟨_, _, List.takeWhile_append_dropWhile.symm, hb, ?_, ?_⟩
  · cases hafter : q.dropWhile isSpace with
    | nil =>
      -- Nothing but space is no record.
      rw [hrun, hafter, Stream.run_idle_nil] at h
      cases h
    | cons c after =>
      have hc := List.head_dropWhile_not isSpace (l := q) (by rw [hafter]; exact List.cons_ne_nil c after)
      exact ⟨c, rfl, by simpa [hafter] using hc⟩
  · rw [hrun] at h
    generalize q.dropWhile isSpace = after, here.afterAll (q.takeWhile isSpace) = there at h
    have hmoved : Stream.Moved there.offset 0 (Stream.run idle start there after)
        (Stream.ofText (String.ofList after)) := by
      rw [Stream.ofText, String.toList_ofList]
      exact Stream.run_moved after (Nat.zero_add _)
    obtain ⟨i, o', flaw', hi, hrefused, halike, hzero, -⟩ := h.moved hmoved 0
    obtain rfl : i = 0 := by omega
    obtain rfl : o' = 0 := (hzero rfl).2.trans (Stream.start_run _ _ _ _)
    exact ⟨flaw', ofText_eq_error_iff.mpr hrefused, halike.category⟩

/-- An accepted text that ends at the offset of an error behind it has no space at its end. -/
theorem Refused.ended {p : List Char} {b : String} {vs : List Value} {ms : List Message} {flaw : Flaw}
    (hp : (Stream.ofText (String.ofList p)).values? = some vs) (hg : Gives vs ms)
    (h : (ofText (String.ofList p ++ b)).result = .error (.malformed (vs.length + 1) (Text.bytes p) flaw)) :
    ∀ c ∈ p.getLast?, isSpace c = false := by
  rw [result_ofText_append hp hg] at h
  cases hresult : (ofRecords vs.length (Stream.run idle (Stream.contentSize (String.ofList p))
      (Json.Place.origin.afterAll (String.ofList p).toList) b.toList)).result with
  | ok messages => rw [hresult] at h; cases h
  | error e =>
    rw [hresult] at h
    cases h
    have hrefused := ofRecords_eq_error_iff.mp hresult
    rcases hrefused.first_or_later with ⟨-, hstart⟩ | ⟨_, _, _, _, -, -, hlater⟩
    · rw [Stream.start_run] at hstart
      exact Stream.isSpace_getLast? hstart.symm
    · exact absurd hlater.lt (Nat.lt_irrefl _)

/-- The text is cut before the record at fault, which is number `r`, and what follows it: up to byte `o` there are the
records before it and no space after the last of them, then comes space, and then the record at fault. -/
structure CutAt (s : String) (r o : Nat) (before blank after : String) : Prop where
  text : s = before ++ blank ++ after
  offset : before.utf8ByteSize = o
  records : ∃ vs, SpellsStream before.toList vs ∧ vs.length + 1 = r
  ended : ∀ c ∈ before.toList.getLast?, isSpace c = false
  blank : Blank blank.toList
  starts : ∃ c ∈ after.toList.head?, isSpace c = false

/-- The byte where a text is cut begins a record if no space comes first. -/
theorem CutAt.isSpace_iff {s : String} {r o : Nat} {before blank after : String} (h : CutAt s r o before blank after)
    {u w : List Char} {c : Char} (hs : s.toList = u ++ c :: w) (hu : Text.bytes u = o) :
    isSpace c = false ↔ blank = "" := by
  have hcut : u ++ c :: w = before.toList ++ (blank.toList ++ after.toList) := by
    rw [← hs, h.text, String.toList_append, String.toList_append, List.append_assoc]
  have hbytes : Text.bytes u = Text.bytes before.toList := by
    rw [hu, ← h.offset, Text.utf8ByteSize_eq_bytes]
  obtain ⟨-, hrest⟩ := Text.append_inj_of_bytes hcut hbytes
  constructor
  · intro hc
    cases hb : blank.toList with
    | nil => exact String.toList_inj.mp hb
    | cons d b =>
      rw [hb, List.cons_append] at hrest
      obtain ⟨rfl, -⟩ := List.cons_eq_cons.mp hrest
      have hspace := h.blank c (by rw [hb]; exact List.mem_cons_self)
      rw [hc] at hspace
      cases hspace
  · rintro rfl
    obtain ⟨d, hd, hstart⟩ := h.starts
    have hhead : some c = after.toList.head? := congrArg List.head? hrest
    rw [← hhead] at hd
    cases hd
    exact hstart

theorem CutAt.ofList {s : String} {p b after : List Char} {vs : List Value} (hs : s.toList = p ++ (b ++ after))
    (hvs : SpellsStream p vs) (hended : ∀ c ∈ p.getLast?, isSpace c = false) (hb : Blank b)
    (hstart : ∃ c ∈ after.head?, isSpace c = false) :
    CutAt s (vs.length + 1) (Text.bytes p) (.ofList p) (.ofList b) (.ofList after) where
  text := by
    rw [← String.ofList_append, ← String.ofList_append, List.append_assoc, ← hs, String.ofList_toList]
  offset := Text.utf8ByteSize_ofList p
  records := ⟨vs, by rwa [String.toList_ofList], rfl⟩
  ended := by rwa [String.toList_ofList]
  blank := by rwa [String.toList_ofList]
  starts := by rwa [String.toList_ofList]

/-- **What the offset of an error says.** A text that is refused can be cut at the offset. The record at fault comes
after the space that follows there: it is refused at once when it comes first, for a flaw of the same category. So the
byte at the offset begins this record exactly if there is no such space. -/
theorem ofText_offset {s : String} {r o : Nat} {flaw : Flaw} (h : (ofText s).result = .error (.malformed r o flaw)) :
    ∃ before blank after, CutAt s r o before blank after ∧
      (∃ flaw', (ofText after).result = .error (.malformed 1 0 flaw') ∧ flaw'.category = flaw.category) ∧
      ∀ u c w, s.toList = u ++ c :: w → Text.bytes u = o → (isSpace c = false ↔ blank = "") := by
  have hrefused := ofText_eq_error_iff.mp h
  rcases hrefused.cut Json.holds_idle with ⟨rfl, rfl⟩ | ⟨p, q, vs, ms, hs, hp, hg, hr, ho, hq⟩
  · obtain ⟨b, after, hs, hb, hstart, hafter⟩ := hrefused.skip
    have hended : ∀ c ∈ ([] : List Char).getLast?, isSpace c = false := fun c hc => by cases hc
    have hcut : CutAt s 1 0 (.ofList []) (.ofList b) (.ofList after) := .ofList hs (.done .nil) hended hb hstart
    exact ⟨_, _, _, hcut, hafter, fun u c w => hcut.isSpace_iff⟩
  · rw [Nat.zero_add] at hr hq
    rw [Json.Place.offset_afterAll] at ho
    obtain rfl : o = Text.bytes p := ho.trans (Nat.zero_add _)
    subst hr
    obtain ⟨b, after, rfl, hb, hstart, hafter⟩ := hq.skip
    have hvs : (Stream.ofText (String.ofList p)).values? = some vs := by
      rw [Stream.ofText, String.toList_ofList]
      exact hp
    have hspells : SpellsStream p vs := by
      have hstream := Stream.values?_ofText_iff.mp hvs
      rwa [String.toList_ofList] at hstream
    have hended : ∀ c ∈ p.getLast?, isSpace c = false := by
      have hjoin : s = String.ofList p ++ String.ofList (b ++ after) := by
        rw [← String.ofList_append, ← hs, String.ofList_toList]
      rw [hjoin] at h
      exact Refused.ended hvs hg h
    have hcut : CutAt s (vs.length + 1) (Text.bytes p) (.ofList p) (.ofList b) (.ofList after) :=
      .ofList hs hspells hended hb hstart
    exact ⟨_, _, _, hcut, hafter, fun u c w => hcut.isSpace_iff⟩

/-- A diagnostic, a line feed and a record without a level: that is the second record, and the offset is that of the
line feed. -/
theorem ofText_offset_line : ∃ before blank after,
    CutAt "\x7b\"message\":\"a\",\"level\":\"error\",\"spans\":[]\x7d\n\x7b\"message\":\"b\"\x7d" 2 42
        before blank after ∧
      blank ≠ "" := by
  obtain ⟨before, blank, after, hcut, -, hspace⟩ := @ofText_offset
    "\x7b\"message\":\"a\",\"level\":\"error\",\"spans\":[]\x7d\n\x7b\"message\":\"b\"\x7d" 2 42
    (.mismatch (.missing "level")) rfl
  refine ⟨before, blank, after, hcut, fun hblank => ?_⟩
  have hstart := (hspace "\x7b\"message\":\"a\",\"level\":\"error\",\"spans\":[]\x7d".toList '\n'
    "\x7b\"message\":\"b\"\x7d".toList rfl rfl).mpr hblank
  cases hstart

/-- So the byte at the offset need not begin a record. -/
theorem not_forall_offset : ¬∀ s r o flaw, (ofText s).result = .error (.malformed r o flaw) →
    ∃ u c w, s.toList = u ++ c :: w ∧ Text.bytes u = o ∧ isSpace c = false := by
  intro hall
  obtain ⟨u, c, w, hs, hu, hc⟩ := hall
    "\x7b\"message\":\"a\",\"level\":\"error\",\"spans\":[]\x7d\n\x7b\"message\":\"b\"\x7d" 2 42
    (.mismatch (.missing "level")) rfl
  have hline : u ++ c :: w = "\x7b\"message\":\"a\",\"level\":\"error\",\"spans\":[]\x7d".toList ++
      '\n' :: "\x7b\"message\":\"b\"\x7d".toList := hs.symm
  obtain ⟨-, hrest⟩ := Text.append_inj_of_bytes hline (by rw [hu]; rfl)
  obtain ⟨rfl, -⟩ := List.cons_eq_cons.mp hrest
  cases hc

end Message

end Pinpoint
