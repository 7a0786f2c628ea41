import Pinpoint.Proofs.Json.Nesting
import Pinpoint.Proofs.Message.Mirror

/-!
# How deep accepted spans are

Each link from a span to that of its macro takes two more containers of the text, and no text is accepted that is nested
deeper than the reader allows. So the trees of an accepted text are at most 62 links deep (`depth_of_ofText`).
-/

namespace Pinpoint

open Json (Value SpellsStream maxNesting)

/-! ## Inside a value -/

namespace Json.Value

variable {P : Number → Prop} {d : Nat} {v w : Value}

/-- More depth does no harm. -/
theorem Within.mono (h : v.Within P d) {d' : Nat} (hd : d ≤ d') : v.Within P d' := by
  induction h generalizing d' with
  | null => exact .null
  | bool => exact .bool
  | number hx => exact .number hx
  | text => exact .text
  | list _ ih =>
    obtain ⟨k, rfl⟩ : ∃ k, d' = k + 1 := ⟨d' - 1, by omega⟩
    exact .list fun v hv => ih v hv (by omega)
  | object _ ih =>
    obtain ⟨k, rfl⟩ : ∃ k, d' = k + 1 := ⟨d' - 1, by omega⟩
    exact .object fun m hm => ih m hm (by omega)

/-- A field is nested one container less. -/
theorem Within.field? {name : String} {place : Nat} (h : v.Within P d) (hw : v.field? name place = some w) :
    ∃ d', d = d' + 1 ∧ w.Within P d' := by
  cases h with
  | @list d' vs hvs => exact ⟨d', rfl, hvs w (List.mem_of_getElem? hw)⟩
  | @object d' ms hms =>
    obtain ⟨l, r, rfl, -⟩ := List.lookup_eq_some_iff.mp hw
    exact ⟨d', rfl, hms (name, w) (List.mem_append_right l List.mem_cons_self)⟩
  | null | bool | number _ | text => cases hw

theorem field?_of_filled? {name : String} {place : Nat} (h : v.filled? name place = some w) :
    v.field? name place = some w := (Option.filter_eq_some_iff.mp h).1

/-- A link takes two containers, the expansion and the span in it. -/
theorem Within.linked? {l : Link} (h : v.Within P d) (hw : v.linked? l = some w) :
    ∃ d', d = d' + 2 ∧ w.Within P d' := by
  obtain ⟨e, he, hlink⟩ := Option.bind_eq_some_iff.mp hw
  obtain ⟨d', rfl, he⟩ := h.field? (field?_of_filled? he)
  cases l with
  | invocation =>
    obtain ⟨d'', rfl, hw⟩ := he.field? (field?_of_filled? hlink)
    exact ⟨d'', rfl, hw⟩
  | definition =>
    obtain ⟨d'', rfl, hw⟩ := he.field? (field?_of_filled? hlink)
    exact ⟨d'', rfl, hw⟩

theorem Within.reached? {way : List Link} (h : v.Within P d) (hw : v.reached? way = some w) :
    ∃ d', d = d' + 2 * way.length ∧ w.Within P d' := by
  induction way generalizing v d with
  | nil =>
    cases hw
    exact ⟨d, rfl, h⟩
  | cons l way ih =>
    obtain ⟨u, hu, hw⟩ := Option.bind_eq_some_iff.mp hw
    obtain ⟨d', rfl, hu⟩ := h.linked? hu
    obtain ⟨d'', rfl, hw⟩ := ih hu hw
    exact ⟨d'', by rw [List.length_cons]; omega, hw⟩

end Json.Value

/-! ## Spans and messages -/

/-- Of two lists that are related item by item, each item of the second one has its own in the first. -/
theorem exists_left_of_mem {α β : Type} {r : α → β → Prop} {as : List α} {bs : List β} (h : List.Forall₂ r as bs) :
    ∀ b ∈ bs, ∃ a ∈ as, r a b := by
  induction h with
  | nil => nofun
  | cons hab _ ih =>
    intro b hb
    rcases List.mem_cons.mp hb with rfl | hb
    · exact ⟨_, List.mem_cons_self, hab⟩
    · obtain ⟨a, ha, hr⟩ := ih b hb
      exact ⟨a, List.mem_cons_of_mem _ ha, hr⟩

variable {d : Nat} {v w : Value}

/-- A node has room for its links in the value that it mirrors. -/
theorem Node.Mirrors.depth_le {severity : Severity} {n : Node} (h : n.Mirrors severity v) (hv : v.Nested d) :
    2 * n.depth + 1 ≤ d := by
  obtain ⟨way, hway, hlength⟩ := h.depth.1
  obtain ⟨w, hw⟩ := Option.isSome_iff_exists.mp hway
  obtain ⟨d', hd, hnested⟩ := hv.reached? hw
  -- What is at the end of the way is a span, so there is one container more.
  have hshows := h.shows way
  rw [hw] at hshows
  generalize n.reached? way = k at hshows
  cases hshows with
  | some hshows =>
    obtain ⟨_, _, _, _, hline, -⟩ := hshows.range
    obtain ⟨d'', rfl, -⟩ := hnested.field? hline
    omega

/-- What should be a diagnostic is nested no deeper than its record. -/
theorem Record.nested_payload (h : payload? v = some w) (hv : v.Nested d) : w.Nested d := by
  unfold payload? at h
  split at h
  · cases h
  · next u hrecord =>
    cases h
    unfold ofJson at hrecord
    split at hrecord
    · cases hrecord
      exact hv
    split at hrecord
    · cases hrecord
      cases hmessage : v.get? "message" with
      | none => exact hv
      | some u =>
        have hfield : v.field? "message" 0 = some u := by
          cases v with
          | object members => exact hmessage
          | _ => cases hmessage
        obtain ⟨d', rfl, hu⟩ := hv.field? hfield
        exact hu.mono (Nat.le_succ d')
    · cases hrecord

namespace Message

/-- The spans of a message lie in a list that lies in its value. -/
theorem Mirrors.depth_le {m : Message} (h : m.Mirrors v) (hv : v.Nested d) : ∀ n ∈ m.spans, 2 * n.depth + 3 ≤ d := by
  intro n hn
  obtain ⟨w, hw, hmirrors⟩ := exists_left_of_mem h.spans n hn
  cases hspans : v.filled? "spans" 3 with
  | none => rw [hspans] at hw; cases hw
  | some u =>
    rw [hspans] at hw
    obtain ⟨d', rfl, hu⟩ := hv.field? (Value.field?_of_filled? hspans)
    cases hu with
    | list hvs =>
      have hle := hmirrors.depth_le (hvs w hw)
      omega
    | null | bool | number _ | text | object _ => cases hw

/-- **No tree of an accepted text is deeper than 62 links.** -/
theorem depth_of_ofText {s : String} {ms : List Message} (h : (ofText s).result = .ok ms) :
    ∀ m ∈ ms, ∀ n ∈ m.spans, n.depth ≤ 62 := by
  intro m hm n hn
  obtain ⟨vs, hvs, hmirrors⟩ := ofText_mirrors h
  obtain ⟨w, hw, hmirror⟩ := exists_left_of_mem hmirrors m hm
  obtain ⟨v, hv, hpayload⟩ := List.mem_filterMap.mp hw
  have hnested : w.Nested maxNesting := Record.nested_payload hpayload (hvs.within v hv)
  have hle := hmirror.depth_le hnested n hn
  unfold maxNesting at hle
  omega

end Message

end Pinpoint
