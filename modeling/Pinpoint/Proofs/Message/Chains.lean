import Pinpoint.Proofs.Json.Overflow
import Pinpoint.Proofs.Json.Writing
import Pinpoint.Proofs.Message.Acceptance
import Pinpoint.Proofs.Message.Depth

/-!
# Chains of macros

A span that is the last one of a chain of invocations, each in the macro of the next, is a tree without branches: it is
as deep as the chain is long. The reader comes to the end of such a chain as long as it has room for the two containers
of each link and for those of the record around them. So a chain of 62 links is read, and no longer one
(`ofText_chain`).
-/

namespace Pinpoint

open Json (Value Number Stream Spells maxNesting)

namespace Json.Value

variable {n : Nat} {v : Value}

/-- From the span that the value is, so many links lead to one invocation after another, and no link leads elsewhere. -/
inductive IsChain : Nat → Value → Prop
  | last {v : Value} : (∀ l, v.linked? l = none) → IsChain 0 v
  | link {n : Nat} {v w : Value} : v.linked? .invocation = some w → v.linked? .definition = none → IsChain n w →
      IsChain (n + 1) v

/-- The longest way is the one along the chain. -/
theorem IsChain.isGreatest (h : v.IsChain n) : IsGreatest (List.length '' {way | (v.reached? way).isSome}) n := by
  induction h with
  | last hnone =>
    refine ⟨⟨[], rfl, rfl⟩, ?_⟩
    rintro _ ⟨way, hway, rfl⟩
    cases way with
    | nil => exact Nat.le_refl 0
    | cons l way =>
      rw [Set.mem_ofPred_eq, reached?, hnone] at hway
      cases hway
  | @link n v w hinvocation hdefinition _ ih =>
    obtain ⟨⟨way, hway, hlength⟩, hle⟩ := ih
    constructor
    · refine ⟨.invocation :: way, ?_, by rw [List.length_cons, hlength]⟩
      rw [Set.mem_ofPred_eq, reached?, hinvocation]
      exact hway
    · rintro _ ⟨way', hway', rfl⟩
      cases way' with
      | nil => exact Nat.zero_le _
      | cons l way' =>
        rw [Set.mem_ofPred_eq, reached?] at hway'
        cases l with
        | invocation =>
          rw [hinvocation] at hway'
          exact Nat.succ_le_succ (hle ⟨way', hway', rfl⟩)
        | definition =>
          rw [hdefinition] at hway'
          cases hway'

end Json.Value

namespace Message

variable {d n : Nat} {s : String} {v w : Value} {m : Message}

/-- The only span of a message is as deep as its chain is long. -/
theorem Mirrors.exists_chain (h : m.Mirrors v) (hspans : v.filled? "spans" 3 = some (.list [w])) (hw : w.IsChain n) :
    ∃ k, m.spans = [k] ∧ k.depth = n := by
  have hmirrors := h.spans
  rw [hspans] at hmirrors
  obtain ⟨k, ks, hk, hks, hm⟩ := List.forall₂_cons_left_iff.mp hmirrors
  cases hks
  exact ⟨k, hm, hk.depth.unique hw.isGreatest⟩

/-- A bare diagnostic is a record with a message that mirrors it. -/
theorem exists_mirrors (hbare : ∀ reason, v.get? "reason" ≠ some (.text reason)) (hv : Diagnostic.Fits v) :
    ∃ m, ofRecord v = .ok (some m) ∧ m.Mirrors v := by
  obtain ⟨d, hd⟩ := (Diagnostic.reads_iff_fits v).mpr hv
  refine ⟨ofDiagnostic d, ofRecord_eq_ok_iff.mpr (.inr ⟨v, d, Record.ofJson_of_bare hbare, hd, rfl⟩), ?_⟩
  exact ofDiagnostic_mirrors hd

/-- A record whose message would be too deep has no text that is read. -/
theorem refused_of_deep (hs : Spells d s.toList v) (h : m.Mirrors v) {k : Node} (hk : k ∈ m.spans)
    (hdeep : 62 < k.depth) :
    ∃ fault, fault.cause = .nestedTooDeep ∧ (ofText s).result = .error (.malformed 1 0 (.fault fault)) := by
  have hv : ¬v.Nested maxNesting := by
    intro hnested
    have hle := h.depth_le hnested k hk
    unfold maxNesting at hle
    omega
  obtain ⟨fault, hbroken, hcause⟩ := Stream.broken_of_deep hs hv
  refine ⟨fault, hcause, ofText_eq_error_iff.mpr ?_⟩
  rw [hbroken]
  exact .fault

/-- **How long a chain may be.** Let a text, nested as deep as it may be, be a bare diagnostic with one span that is the
last one of a chain of invocations. A chain of up to 62 links is read, in a text that is nested no deeper than the chain
needs, and the one span of the message is as deep as the chain is long. A longer chain is refused in every text, for its
depth alone. -/
theorem ofText_chain (hs : Spells d s.toList v) (hbare : ∀ reason, v.get? "reason" ≠ some (.text reason))
    (hv : Diagnostic.Fits v) (hspans : v.filled? "spans" 3 = some (.list [w])) (hw : w.IsChain n) :
    (n ≤ 62 → d ≤ 2 * n + 3 → ∃ m k, (ofText s).result = .ok [m] ∧ m.spans = [k] ∧ k.depth = n) ∧
      (62 < n → ∃ fault, fault.cause = .nestedTooDeep ∧
        (ofText s).result = .error (.malformed 1 0 (.fault fault))) := by
  obtain ⟨m, hm, hmirrors⟩ := exists_mirrors hbare hv
  obtain ⟨k, hk, rfl⟩ := hmirrors.exists_chain hspans hw
  constructor
  · intro hn hd
    have hroom : d ≤ maxNesting := by
      unfold maxNesting
      omega
    have hvalues := Stream.values?_ofText_of_spells hs hroom
    exact ⟨m, k, ofText_eq_ok_iff.mpr ⟨[v], hvalues, .cons hm .nil⟩, hk, rfl⟩
  · exact refused_of_deep hs hmirrors (by rw [hk]; exact List.mem_cons_self)

end Message

/-! ## The longest chain that is read -/

/-- A span that says no more than its numbers and the last one of so many invocations. -/
def Span.chain : Nat → Value
  | 0 => .object [("column_end", .number (.natural 1)), ("column_start", .number (.natural 1)),
      ("line_end", .number (.natural 1)), ("line_start", .number (.natural 1))]
  | n + 1 => .object [("column_end", .number (.natural 1)), ("column_start", .number (.natural 1)),
      ("expansion", .object [("span", chain n)]), ("line_end", .number (.natural 1)),
      ("line_start", .number (.natural 1))]

/-- A diagnostic with such a span. -/
def Diagnostic.chain (n : Nat) : Value :=
  .object [("level", .text "error"), ("message", .text "m"), ("spans", .list [Span.chain n])]

theorem Span.isChain_chain (n : Nat) : (Span.chain n).IsChain n := by
  induction n with
  | zero => exact .last fun l => by cases l <;> rfl
  | succ n ih =>
    have hfilled : (some (Span.chain n)).filter (!·.isNull) = some (Span.chain n) := by cases n <;> rfl
    exact .link hfilled rfl ih

theorem Span.fits_chain (n : Nat) : Span.Fits (Span.chain n) := by
  have hword : Required IsWord (some (.number (.natural 1))) := ⟨_, rfl, 1, rfl⟩
  have hnone : ∀ P, Optional P none := fun P v hv => by cases hv
  induction n with
  | zero => exact .fields trivial (hnone _) hword hword hword hword (hnone _) (hnone _) (hnone _)
  | succ n ih =>
    have hexpansion : Expansion.Fits (.object [("span", Span.chain n)]) := by
      refine .fields trivial (fun v hv _ => ?_) (hnone _)
      cases hv
      exact ih
    refine .fields trivial (hnone _) hword hword hword hword (hnone _) (hnone _) fun v hv _ => ?_
    cases hv
    exact hexpansion

theorem Diagnostic.fits_chain (n : Nat) : Diagnostic.Fits (Diagnostic.chain n) := by
  refine ⟨trivial, ⟨_, rfl, "m", rfl⟩, ⟨_, rfl, "error", rfl⟩, fun v hv _ => ?_, fun v hv => by cases hv⟩
  cases hv
  refine ⟨_, rfl, fun w hw => ?_⟩
  rw [List.mem_singleton.mp hw]
  exact Span.fits_chain n

/-- Each link takes two containers, the expansion and the span in it. -/
theorem Span.within_chain (n : Nat) : (Span.chain n).Within Number.IsNatural (2 * n + 1) := by
  have hone : ∀ d, (Value.number (.natural 1)).Within Number.IsNatural d := fun d => .number ⟨1, rfl⟩
  induction n with
  | zero => exact .object (by simp [hone])
  | succ n ih =>
    have hexpansion : (Value.object [("span", Span.chain n)]).Within Number.IsNatural (2 * (n + 1)) :=
      .object (d := 2 * n + 1) (by simpa using ih)
    exact .object (by simpa [hone] using hexpansion)

/-- The members of a span are in the order of their keys. -/
theorem Span.value_chain (n : Nat) : (Span.chain n).tree.value = Span.chain n := by
  induction n with
  | zero => rfl
  | succ n ih =>
    show Value.object [_, _, ("expansion", .object [("span", (Span.chain n).tree.value)]), _, _] = _
    rw [ih]
    rfl

theorem Diagnostic.within_chain (n : Nat) : (Diagnostic.chain n).Within Number.IsNatural (2 * n + 3) := by
  have hspans : (Value.list [Span.chain n]).Within Number.IsNatural (2 * n + 2) :=
    .list (by simpa using Span.within_chain n)
  exact .object (by simpa [Value.Within.text] using hspans)

theorem Diagnostic.value_chain (n : Nat) : (Diagnostic.chain n).tree.value = Diagnostic.chain n := by
  show Value.object [_, _, ("spans", .list [(Span.chain n).tree.value])] = _
  rw [Span.value_chain]
  rfl

/-- The text of the diagnostic on one line, its containers nested as the chain has it. -/
theorem Diagnostic.spells_chain (n : Nat) :
    Spells (2 * n + 3) (Diagnostic.chain n).compact.toList (Diagnostic.chain n) :=
  (Diagnostic.within_chain n).spells_compact (Diagnostic.value_chain n)

theorem Diagnostic.bare_chain (n : Nat) (reason : String) :
    (Diagnostic.chain n).get? "reason" ≠ some (.text reason) := by
  intro hreason
  cases hreason

/-- A chain of 62 links is read, and one of 63 is refused. -/
theorem Message.ofText_chain_longest :
    (∃ m k, (ofText (Diagnostic.chain 62).compact).result = .ok [m] ∧ m.spans = [k] ∧ k.depth = 62) ∧
      ∃ fault, fault.cause = .nestedTooDeep ∧
        (ofText (Diagnostic.chain 63).compact).result = .error (.malformed 1 0 (.fault fault)) :=
  ⟨(ofText_chain (Diagnostic.spells_chain 62) (Diagnostic.bare_chain 62) (Diagnostic.fits_chain 62) rfl
      (Span.isChain_chain 62)).1 (by decide) (by decide),
    (ofText_chain (Diagnostic.spells_chain 63) (Diagnostic.bare_chain 63) (Diagnostic.fits_chain 63) rfl
      (Span.isChain_chain 63)).2 (by decide)⟩

/-- So not every chain is read. -/
theorem Message.not_forall_chain :
    ¬∀ n, ∃ m k, (ofText (Diagnostic.chain n).compact).result = .ok [m] ∧ m.spans = [k] ∧ k.depth = n := by
  intro hall
  obtain ⟨m', k', haccepted, -⟩ := hall 63
  obtain ⟨m, -, hmirrors⟩ := exists_mirrors (Diagnostic.bare_chain 63) (Diagnostic.fits_chain 63)
  obtain ⟨k, hk, hdepth⟩ := hmirrors.exists_chain rfl (Span.isChain_chain 63)
  obtain ⟨fault, -, hrefused⟩ := refused_of_deep (Diagnostic.spells_chain 63) hmirrors
    (by rw [hk]; exact List.mem_cons_self) (by rw [hdepth]; decide)
  rw [hrefused] at haccepted
  cases haccepted

end Pinpoint
