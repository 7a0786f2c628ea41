import Pinpoint.Proofs.Input.Sources

/-!
# Texts in pieces

However a text is cut into pieces of bytes, and wherever its delivery is interrupted, its messages are those of the
whole text; bytes that are no text as a whole give none (`ofDeliveries_of_brings`). A delivery that fails gives none
either: its first failure is the answer, whatever comes before or after it (`ofDeliveries_of_failed`).
-/

namespace Pinpoint

namespace Delivery

/-- The deliveries bring these bytes, in pieces that are not empty and with interruptions between them. -/
inductive Brings : List Delivery → ByteArray → Prop
  | nothing : Brings [] .empty
  | bytes {b whole : ByteArray} {ds : List Delivery} : b ≠ .empty → Brings ds whole →
      Brings (.bytes b :: ds) (b ++ whole)
  | interrupted {whole : ByteArray} {ds : List Delivery} : Brings ds whole → Brings (.interrupted :: ds) whole

/-- All that is brought is gathered. -/
theorem Brings.gather {ds : List Delivery} {whole : ByteArray} (h : Brings ds whole) : gather ds = .ok whole := by
  induction h with
  | nothing => rfl
  | bytes _ _ ih => rw [Delivery.gather, ih]; rfl
  | interrupted _ ih => exact ih

/-- What was brought before a failure is given up. -/
theorem Brings.gather_failed {ds : List Delivery} {whole : ByteArray} (h : Brings ds whole) (f : ReadFailure)
    (later : List Delivery) : Delivery.gather (ds ++ .failed f :: later) = .error f := by
  induction h with
  | nothing => rfl
  | bytes _ _ ih => rw [List.cons_append, Delivery.gather, ih]; rfl
  | interrupted _ ih => rw [List.cons_append, Delivery.gather, ih]

/-- Bytes are decoded as the text that they encode. -/
theorem decode_toUTF8 (s : String) : decode s.toUTF8 = .ok s := by
  have hvalid : String.fromUTF8? s.toUTF8 = some s := by
    rw [String.fromUTF8?, String.toUTF8_eq_toByteArray, dif_pos s.isValidUTF8]
    rfl
  rw [decode, hvalid]

/-- So a text is read that comes in one piece, as it is encoded. -/
theorem text_toUTF8 (s : String) : text [.bytes s.toUTF8] = .ok s := by
  rw [text, Delivery.gather, Delivery.gather]
  show decode (s.toUTF8 ++ .empty) = .ok s
  rw [ByteArray.append_empty, decode_toUTF8]

/-- Bytes that encode no text are refused. -/
theorem decode_of_no_text {b : ByteArray} (h : ∀ s : String, s.toUTF8 ≠ b) : decode b = .error .notText := by
  unfold decode
  split
  · next s hs =>
    unfold String.fromUTF8? at hs
    split at hs
    · next hvalid => exact absurd rfl (h (String.fromUTF8 b hvalid))
    · cases hs
  · rfl

end Delivery

namespace Message

open Delivery (Brings)

/-- **Only the bytes as a whole count.** Where they encode a text, they give what the text gives; where they encode
none, they are refused as invalid data. So the pieces and the interruptions do not matter. -/
theorem ofDeliveries_of_brings {ds : List Delivery} {whole : ByteArray} (h : Brings ds whole) :
    (∀ s : String, s.toUTF8 = whole → ofDeliveries ds = ofText s) ∧
      ((∀ s : String, s.toUTF8 ≠ whole) →
        ∃ f : ReadFailure, f.kind = .invalidData ∧ ofDeliveries ds = ⟨[], .error (.unread f)⟩) ∧
      ∀ ds', Brings ds' whole → ofDeliveries ds' = ofDeliveries ds := by
  have htext : ∀ {ds}, Brings ds whole → Delivery.text ds = Delivery.decode whole := by
    intro ds hds
    rw [Delivery.text, hds.gather]
    rfl
  refine ⟨fun s hs => ?_, fun hnone => ⟨.notText, rfl, ?_⟩, fun ds' h' => ?_⟩
  · rw [ofDeliveries, htext h, ← hs, Delivery.decode_toUTF8]
  · rw [ofDeliveries, htext h, Delivery.decode_of_no_text hnone]
  · rw [ofDeliveries, ofDeliveries, htext h', htext h]

/-- A letter of two bytes, cut in two inside a record that is skipped; and its first byte alone. -/
theorem ofDeliveries_of_brings_letter :
    ofDeliveries [.bytes "\x7b\"reason\":\"".toUTF8, .bytes ⟨#[0xc3]⟩, .interrupted, .bytes ⟨#[0xa9, 0x22, 0x7d]⟩] =
        ofText "\x7b\"reason\":\"é\"\x7d" ∧
      ∃ f : ReadFailure, f.kind = .invalidData ∧ ofDeliveries [.bytes ⟨#[0xc3]⟩] = ⟨[], .error (.unread f)⟩ := by
  have hletter : Brings
      [.bytes "\x7b\"reason\":\"".toUTF8, .bytes ⟨#[0xc3]⟩, .interrupted, .bytes ⟨#[0xa9, 0x22, 0x7d]⟩]
      ("\x7b\"reason\":\"".toUTF8 ++ (⟨#[0xc3]⟩ ++ (⟨#[0xa9, 0x22, 0x7d]⟩ ++ .empty))) :=
    .bytes (by decide) (.bytes (by decide) (.interrupted (.bytes (by decide) .nothing)))
  have hbyte : Brings [.bytes ⟨#[0xc3]⟩] (⟨#[0xc3]⟩ ++ .empty) := .bytes (by decide) .nothing
  have hnone : ∀ s : String, s.toUTF8 ≠ ⟨#[0xc3]⟩ ++ .empty := by
    intro s hs
    have hvalid : (⟨#[0xc3]⟩ ++ ByteArray.empty : ByteArray).IsValidUTF8 := hs ▸ s.isValidUTF8
    exact absurd hvalid (by decide)
  exact ⟨(ofDeliveries_of_brings hletter).1 _ (by decide), (ofDeliveries_of_brings hbyte).2.1 hnone⟩

/-- **A failure is never masked.** Whatever was brought before it, records or not, text or not, and whatever would have
come after it, the first failure is the whole answer: there is no message, nothing in the log, and no record is
blamed. -/
theorem ofDeliveries_of_failed {ds : List Delivery} {whole : ByteArray} (h : Brings ds whole) (f : ReadFailure)
    (later : List Delivery) :
    ofDeliveries (ds ++ .failed f :: later) = ⟨[], .error (.unread f)⟩ ∧
      ∀ e, (ofDeliveries (ds ++ .failed f :: later)).result = .error e → e.record? = none := by
  have hfailed : ofDeliveries (ds ++ .failed f :: later) = ⟨[], .error (.unread f)⟩ := by
    have htext : Delivery.text (ds ++ .failed f :: later) = .error f := by
      rw [Delivery.text, h.gather_failed]
      rfl
    rw [ofDeliveries, htext]
  refine ⟨hfailed, ?_⟩
  intro e he
  rw [hfailed] at he
  cases he
  rfl

/-- A note, a list that does not end and half a letter, then a broken pipe, and another failure after it. -/
theorem ofDeliveries_of_failed_pipe :
    ofDeliveries [.bytes "[\"m\",null,\"note\"][".toUTF8, .interrupted, .bytes ⟨#[0xc3]⟩,
        .failed ⟨.brokenPipe, "pipe closed"⟩, .bytes ⟨#[0xa9]⟩, .failed ⟨.timedOut, "too slow"⟩] =
      ⟨[], .error (.unread ⟨.brokenPipe, "pipe closed"⟩)⟩ := by
  have hbrings : Brings [.bytes "[\"m\",null,\"note\"][".toUTF8, .interrupted, .bytes ⟨#[0xc3]⟩]
      ("[\"m\",null,\"note\"][".toUTF8 ++ (⟨#[0xc3]⟩ ++ .empty)) :=
    .bytes (by decide) (.interrupted (.bytes (by decide) .nothing))
  exact (ofDeliveries_of_failed hbrings ⟨.brokenPipe, "pipe closed"⟩
    [.bytes ⟨#[0xa9]⟩, .failed ⟨.timedOut, "too slow"⟩]).1

end Message

/-- The messages of a text that the standard input brings as it is encoded. -/
theorem Surroundings.alone_of_text {text : String} {messages : List Message}
    (h : (Message.ofText text).result = .ok messages) :
    (Surroundings.withoutFiles [.bytes text.toUTF8]).alone standardInput = ⟨standardInput, .ok messages⟩ := by
  show (Source.collect ⟨standardInput, .ok [.bytes text.toUTF8]⟩).result = _
  simp only [Source.collect, Logged.map, Message.ofDeliveries, Delivery.text_toUTF8, h]
  rfl

end Pinpoint
