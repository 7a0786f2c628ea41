import Pinpoint.Proofs.Message.Acceptance
import Pinpoint.Proofs.Message.Beginnings

/-!
# What records look like

A record shows what it is by few of its members: by its reason, or by a message and a level. It may also be no object
at all: every shape is read from a list too, by place, and no object is asked for (`not_forall_object`). Such lists are
all there is besides the objects: an accepted text holds no other values, and one that comes to any other value is
refused (`ofText_outlined`).
-/

namespace Pinpoint

open Json (Value Stream SpellsStream)
open Json.Machine (isDelimiter)

/-! ## Outlines -/

/-- The value is an object with texts for a message and a level. -/
inductive Diagnostic.Outlined : Value → Prop
  | object {members : List (String × Value)} : Required IsText (members.lookup "message") →
      Required IsText (members.lookup "level") → Outlined (.object members)

/-- The value has a reason for which it is skipped, or an object with the members of a diagnostic is in its envelope,
or without a reason it is such an object itself. -/
inductive Record.Outlined (v : Value) : Prop
  | skipped {reason : String} : v.get? "reason" = some (.text reason) → reason ≠ "compiler-message" → Outlined v
  | enveloped {w : Value} : v.get? "reason" = some (.text "compiler-message") → v.get? "message" = some w →
      Diagnostic.Outlined w → Outlined v
  | bare : (∀ reason, v.get? "reason" ≠ some (.text reason)) → Diagnostic.Outlined v → Outlined v

/-- A list stands in the place of a diagnostic, and its items are the fields of one. -/
inductive Record.Listed : Value → Prop
  | enveloped {v : Value} {ws : List Value} : v.get? "reason" = some (.text "compiler-message") →
      v.get? "message" = some (.list ws) → Diagnostic.Fits (.list ws) → Listed v
  | bare {ws : List Value} : Diagnostic.Fits (.list ws) → Listed (.list ws)

/-- A diagnostic is an object with its outline, or a list. -/
theorem Diagnostic.Fits.outlined_or_list {v : Value} (h : Diagnostic.Fits v) :
    Diagnostic.Outlined v ∨ ∃ ws, v = .list ws := by
  cases v with
  | object members => exact .inl (.object h.message h.level)
  | list ws => exact .inr ⟨ws, rfl⟩
  | null | bool _ | number _ | text _ => exact h.frame.elim

namespace Record

variable {v : Value}

/-- What passes for a record has its outline, or is a list in its place. -/
theorem Fits.outlined_or_listed (h : Record.Fits v) : Record.Outlined v ∨ Record.Listed v := by
  cases h with
  | skipped hreason hne => exact .inl (.skipped hreason hne)
  | enveloped hreason hmessage hfits =>
    rcases hfits.outlined_or_list with houtlined | ⟨ws, rfl⟩
    · exact .inl (.enveloped hreason hmessage houtlined)
    · exact .inr (.enveloped hreason hmessage hfits)
  | bare hbare hfits =>
    rcases hfits.outlined_or_list with houtlined | ⟨ws, rfl⟩
    · exact .inl (.bare hbare houtlined)
    · exact .inr (.bare hfits)

theorem Listed.fits (h : Record.Listed v) : Record.Fits v := by
  cases h with
  | enveloped hreason hmessage hfits => exact .enveloped hreason hmessage hfits
  | bare hfits =>
    refine .bare ?_ hfits
    intro reason hreason
    cases hreason

theorem Outlined.not_listed (h : Record.Outlined v) : ¬Record.Listed v := by
  intro hlisted
  cases h with
  | skipped hreason hne =>
    cases hlisted with
    | enveloped hreason' _ _ => cases hreason.symm.trans hreason'; exact hne rfl
    | bare _ => cases hreason
  | enveloped hreason hmessage houtlined =>
    cases hlisted with
    | enveloped _ hmessage' _ => cases hmessage.symm.trans hmessage'; cases houtlined
    | bare _ => cases hreason
  | bare hbare houtlined =>
    cases hlisted with
    | enveloped hreason _ _ => exact hbare _ hreason
    | bare _ => cases houtlined

end Record

/-! ## Texts -/

namespace Message

/-- A text that begins with a stream is refused for one of its values exactly if one of them is no record. -/
theorem refused_within_iff {p q : String} {vs : List Value} (hp : SpellsStream p.toList vs)
    (hq : ∀ v ∈ vs.getLast?, v.isLoose = true → ∀ c ∈ q.toList.head?, isDelimiter c = true) :
    (∃ r o flaw, (ofText (p ++ q)).result = .error (.malformed r o flaw) ∧ r ≤ vs.length) ↔
      ¬∀ v ∈ vs, Record.Fits v := by
  rw [← exists_gives_iff]
  constructor
  · rintro ⟨r, o, flaw, h, hr⟩ ⟨ms, hg⟩
    have hlt := lt_of_begins hp hg h
    omega
  · intro hv
    cases hvalues : ofValues vs with
    | ok ms => exact absurd ⟨ms, gives_iff_ofValues.mpr hvalues⟩ hv
    | error e =>
      obtain ⟨i, m⟩ := e
      obtain ⟨o, ho⟩ := refused_of_begins hp hq hvalues
      have hlt := lt_length_of_ofValues hvalues
      exact ⟨i + 1, o, _, ho, by omega⟩

/-- **What accepted records look like.** Each value of an accepted text has the outline of a record, unless a list that
passes for a diagnostic stands in its place. A text that comes to a value without that outline is refused for it or for
a record before it, whatever follows, unless the value is excused by such a list and the values before it are
records. -/
theorem ofText_outlined (s : String) :
    (∀ ms, (ofText s).result = .ok ms →
        ∃ vs, SpellsStream s.toList vs ∧ ∀ v ∈ vs, Record.Outlined v ↔ ¬Record.Listed v) ∧
      ∀ p q us v, s = p ++ q → SpellsStream p.toList (us ++ [v]) →
        (v.isLoose = true → ∀ c ∈ q.toList.head?, isDelimiter c = true) → ¬Record.Outlined v →
        ((∃ r o flaw, (ofText s).result = .error (.malformed r o flaw) ∧ r ≤ us.length + 1) ↔
          ¬((∀ u ∈ us, Record.Fits u) ∧ Record.Listed v)) := by
  constructor
  · intro ms hms
    obtain ⟨vs, hvs, hfits⟩ := ofText_isOk_iff.mp ⟨ms, hms⟩
    refine ⟨vs, hvs, fun v hv => ⟨Record.Outlined.not_listed, fun hlisted => ?_⟩⟩
    exact (hfits v hv).outlined_or_listed.resolve_right hlisted
  · rintro p q us v rfl hp hq hv
    have hfits : Record.Fits v ↔ Record.Listed v :=
      ⟨fun h => h.outlined_or_listed.resolve_left hv, Record.Listed.fits⟩
    have hrefused := refused_within_iff hp (by simpa using hq)
    rwa [List.length_append, List.length_singleton, List.forall_mem_append, List.forall_mem_singleton, hfits]
      at hrefused

/-- A list that is a note, alone, and in front of a word with more behind it. -/
theorem ofText_outlined_note :
    (∃ vs, SpellsStream "[\"m\",null,\"note\"]".toList vs ∧ ∀ v ∈ vs, Record.Outlined v ↔ ¬Record.Listed v) ∧
      ∃ r o flaw, (ofText "[\"m\",null,\"note\"]true\n]").result = .error (.malformed r o flaw) ∧ r ≤ 2 := by
  have hstream : SpellsStream "[\"m\",null,\"note\"]true".toList
      ([.list [.text "m", .null, .text "note"]] ++ [.bool true]) :=
    Stream.values?_ofText_iff.mp rfl
  have hoff : ¬Record.Outlined (.bool true) := by
    intro h
    cases h with
    | skipped hreason _ => cases hreason
    | enveloped hreason _ _ => cases hreason
    | bare _ houtlined => cases houtlined
  have hlisted : ¬Record.Listed (.bool true) := by
    intro h
    cases h with
    | enveloped hreason _ _ => cases hreason
  obtain ⟨hnote, -⟩ := ofText_outlined "[\"m\",null,\"note\"]"
  obtain ⟨-, hrefused⟩ := ofText_outlined "[\"m\",null,\"note\"]true\n]"
  refine ⟨hnote [⟨"m", .info, none, none, []⟩] rfl, ?_⟩
  refine (hrefused "[\"m\",null,\"note\"]true" "\n]" _ _ rfl hstream ?_ hoff).mpr fun h => hlisted h.2
  intro _ c hc
  cases hc
  rfl

/-- So not every value of an accepted text is an object. -/
theorem not_forall_object : ¬∀ s ms vs, (ofText s).result = .ok ms → SpellsStream s.toList vs →
    ∀ v ∈ vs, ∃ members, v = .object members := by
  intro hall
  have hstream : SpellsStream "[\"m\",null,\"error\"]".toList [.list [.text "m", .null, .text "error"]] :=
    Stream.values?_ofText_iff.mp rfl
  obtain ⟨members, hmembers⟩ := hall "[\"m\",null,\"error\"]" [⟨"m", .error, none, none, []⟩] _ rfl hstream _
    List.mem_cons_self
  cases hmembers

end Message

end Pinpoint
