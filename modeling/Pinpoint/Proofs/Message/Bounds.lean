import Pinpoint.Proofs.Message.Chains
import Pinpoint.Proofs.Message.Concatenation
import Pinpoint.Proofs.Message.Dumps

/-!
# How far the recursions go

The reader's limit on containers is a limit on the links of macros: a message that is accepted has no span with more
than 62 links below it, and none with more than 61 if it came in an envelope, which is one more container. So every
recursion that follows the links ends after as many of them (`ofText_shallow`).
-/

namespace Pinpoint

open Json (Value Number Stream Spells SpellsStream maxNesting)

variable {d k : Nat} {v w : Value} {m : Message}

/-! ## Messages of so many links -/

/-- No recursion through the spans of the message, from the value that it is made from to its text, follows more links
one after another. -/
structure Message.Shallow (k : Nat) (w : Value) (m : Message) : Prop where
  depth : ∀ n ∈ m.spans, n.depth ≤ k
  /-- What is followed to make the trees. -/
  made : ∀ v ∈ Value.items (w.filled? "spans" 3), ∀ way, (v.reached? way).isSome → way.length ≤ k
  /-- What is followed to measure and flatten them. -/
  visited : ∀ n ∈ m.spans, ∀ way, (n.reached? way).isSome → way.length ≤ k
  /-- What is followed to write them: the containers of the message, of its spans and of the three parts of a node are
  around and below the links. -/
  written : m.toJson.Within Number.IsNatural (k + 5)

/-- The depth of the trees bounds all recursions. -/
theorem Message.Mirrors.shallow (h : m.Mirrors w) (hdepth : ∀ n ∈ m.spans, n.depth ≤ k) : m.Shallow k w where
  depth := hdepth
  made := by
    intro v hv way hway
    obtain ⟨n, hn, hmirrors⟩ := exists_left_of_mem h.spans.flip v hv
    exact Nat.le_trans (hmirrors.depth.2 ⟨way, hway, rfl⟩) (hdepth n hn)
  visited := by
    intro n hn way hway
    exact Nat.le_trans (n.isGreatest_depth.2 ⟨way, hway, rfl⟩) (hdepth n hn)
  written := by
    have hroom : ∀ n ∈ m.spans, n.depth + 2 ≤ k + 2 := by
      intro n hn
      have := hdepth n hn
      omega
    exact Headed.within_toJson hroom

/-! ## Records -/

/-- An envelope is one container around the diagnostic in it. -/
theorem Record.nested_enveloped (hreason : v.get? "reason" = some (.text "compiler-message")) (h : payload? v = some w)
    (hm : m.Mirrors w) (hv : v.Nested (d + 1)) : w.Nested d := by
  rw [payload?, ofJson_of_reason hreason, if_pos rfl] at h
  cases v with
  | object members =>
    cases hmessage : members.lookup "message" with
    | none =>
      -- An envelope without a message would be the diagnostic, and that has one.
      simp only [Value.get?, hmessage, Option.getD_none, Option.some.injEq] at h
      subst h
      have hfound := hmessage.symm.trans hm.text
      cases hfound
    | some u =>
      simp only [Value.get?, hmessage, Option.getD_some, Option.some.injEq] at h
      subst h
      have hfield : (Value.object members).field? "message" 0 = some u := hmessage
      obtain ⟨d', hd, hu⟩ := hv.field? hfield
      cases hd
      exact hu
  | null | bool _ | number _ | text _ | list _ => cases hreason

/-- A record is no deeper than the reader allows, and so its message is shallow. -/
theorem Message.Mirrors.shallow_of_record (hm : m.Mirrors w) (h : Record.payload? v = some w)
    (hv : v.Nested maxNesting) :
    m.Shallow 62 w ∧ (v.get? "reason" = some (.text "compiler-message") → m.Shallow 61 w) := by
  constructor
  · apply hm.shallow
    intro n hn
    have hle := hm.depth_le (Record.nested_payload h hv) n hn
    unfold maxNesting at hle
    omega
  · intro hreason
    apply hm.shallow
    intro n hn
    have hle := hm.depth_le (d := 126) (Record.nested_enveloped hreason h hm hv) n hn
    omega

namespace Message

/-- The messages are those of the records that are not skipped, one by one. -/
theorem Gives.forall₂ {P : Value → Prop} {vs : List Value} {ms : List Message} (h : Gives vs ms) (hP : ∀ v ∈ vs, P v) :
    List.Forall₂ (fun v m => P v ∧ ∃ w, Record.payload? v = some w ∧ m.Mirrors w) (vs.filter fun v => !skips v) ms := by
  induction h with
  | nil => exact .nil
  | @cons v x vs ms hx _ ih =>
    obtain ⟨hv, hvs⟩ := List.forall_mem_cons.mp hP
    rcases ofRecord_eq_ok_iff.mp hx with ⟨reason, hrecord, rfl⟩ | ⟨w, d, hrecord, hd, rfl⟩
    · rw [List.filter_cons_of_neg (by simp [skips, hrecord])]
      exact ih hvs
    · rw [List.filter_cons_of_pos (by simp [skips, hrecord])]
      exact .cons ⟨hv, w, by rw [Record.payload?, hrecord], ofDiagnostic_mirrors hd⟩ (ih hvs)

/-- **Accepted trees have at most 62 links one after another**, and at most 61 in an envelope, whatever links they are
and in whatever form they are written. That bounds every recursion: the one that makes the trees from the spans, those
that measure and flatten them, and the one that writes them. -/
theorem ofText_shallow {s : String} {ms : List Message} (h : (ofText s).result = .ok ms) :
    ∃ vs, SpellsStream s.toList vs ∧
      List.Forall₂ (fun v m => ∃ w, Record.payload? v = some w ∧ m.Mirrors w ∧ m.Shallow 62 w ∧
        (v.get? "reason" = some (.text "compiler-message") → m.Shallow 61 w)) (vs.filter fun v => !skips v) ms := by
  obtain ⟨vs, hvs, hg⟩ := ofText_eq_ok_iff.mp h
  have hspells := Stream.values?_ofText_iff.mp hvs
  refine ⟨vs, hspells, (hg.forall₂ hspells.within).imp ?_⟩
  rintro v m ⟨hv, w, hw, hm⟩
  exact ⟨w, hw, hm, hm.shallow_of_record hw hv⟩

end Message

/-! ## The deepest records -/

/-- The diagnostic with a chain of so many links, in an envelope. -/
def Record.chain (n : Nat) : Value :=
  .object [("message", Diagnostic.chain n), ("reason", .text "compiler-message")]

/-- The envelope is one container more. -/
theorem Record.spells_chain (n : Nat) : Spells (2 * n + 4) (Record.chain n).compact.toList (Record.chain n) := by
  have hwithin : (Record.chain n).Within Number.IsNatural (2 * n + 4) :=
    .object (by simpa [Value.Within.text] using Diagnostic.within_chain n)
  have hvalue : (Record.chain n).tree.value = Record.chain n := by
    show Value.object [("message", (Diagnostic.chain n).tree.value), _] = _
    rw [Diagnostic.value_chain]
    rfl
  exact hwithin.spells_compact hvalue

/-- A record with a chain is accepted if the reader has room for it. -/
theorem Message.exists_chain_of_record {s : String} {n : Nat} (hs : Spells d s.toList v) (hd : d ≤ maxNesting)
    (hv : Record.ofJson v = .diagnostic (Diagnostic.chain n)) :
    (Stream.ofText s).values? = some [v] ∧
      ∃ m k, (ofText s).result = .ok [m] ∧ m.spans = [k] ∧ k.depth = n := by
  have hvalues := Stream.values?_ofText_of_spells hs hd
  obtain ⟨x, hx⟩ := (Diagnostic.reads_iff_fits _).mpr (Diagnostic.fits_chain n)
  have hrecord : ofRecord v = .ok (some (ofDiagnostic x)) := ofRecord_eq_ok_iff.mpr (.inr ⟨_, x, hv, hx, rfl⟩)
  obtain ⟨k, hk, hdepth⟩ := (ofDiagnostic_mirrors hx).exists_chain rfl (Span.isChain_chain n)
  exact ⟨hvalues, _, k, ofText_eq_ok_iff.mpr ⟨_, hvalues, .cons hrecord .nil⟩, hk, hdepth⟩

/-- A chain of 62 links, and one of 61 in an envelope: both bounds are reached. -/
theorem Message.ofText_shallow_chain :
    (∃ m k, (ofText (Diagnostic.chain 62).compact).result = .ok [m] ∧ m.spans = [k] ∧ k.depth = 62 ∧
        m.Shallow 62 (Diagnostic.chain 62)) ∧
      ∃ m k, (ofText (Record.chain 61).compact).result = .ok [m] ∧ m.spans = [k] ∧ k.depth = 61 ∧
        m.Shallow 61 (Diagnostic.chain 61) := by
  constructor
  · obtain ⟨hvalues, m, k, hm, hk, hdepth⟩ :=
      exists_chain_of_record (n := 62) (Diagnostic.spells_chain 62) (by decide) rfl
    obtain ⟨vs, hvs, hshallow⟩ := ofText_shallow hm
    obtain rfl : [Diagnostic.chain 62] = vs :=
      Option.some.inj (hvalues.symm.trans (Stream.values?_ofText_iff.mpr hvs))
    obtain ⟨⟨w, hw, -, hbound, -⟩, -⟩ := List.forall₂_cons.mp hshallow
    cases hw
    exact ⟨m, k, hm, hk, hdepth, hbound⟩
  · obtain ⟨hvalues, m, k, hm, hk, hdepth⟩ :=
      exists_chain_of_record (n := 61) (Record.spells_chain 61) (by decide) rfl
    obtain ⟨vs, hvs, hshallow⟩ := ofText_shallow hm
    obtain rfl : [Record.chain 61] = vs :=
      Option.some.inj (hvalues.symm.trans (Stream.values?_ofText_iff.mpr hvs))
    obtain ⟨⟨w, hw, -, -, hbound⟩, -⟩ := List.forall₂_cons.mp hshallow
    cases hw
    exact ⟨m, k, hm, hk, hdepth, hbound rfl⟩

end Pinpoint
