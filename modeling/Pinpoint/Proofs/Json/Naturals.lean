import Pinpoint.Proofs.Json.Grammar

/-!
# Natural numbers in a text

A whole number from zero up is spelled by decimal digits alone (`spells_natural_iff`). A sign, a point or an exponent
makes another number of it, even if it is as large, and so does a digit more than 64 bits hold.
-/

namespace Pinpoint.Json

/-- Decimal digits that spell the number: no zero stands before another digit. -/
inductive SpellsNatural : List Char → Nat → Prop
  | digit {c : Char} {d : Nat} : Numeral.digit? c = some d → SpellsNatural [c] d
  | snoc {w : List Char} {c : Char} {n d : Nat} : SpellsNatural w n → n ≠ 0 → Numeral.digit? c = some d →
      SpellsNatural (w ++ [c]) (n * 10 + d)

namespace Numeral

theorem digit?_le {c : Char} {d : Nat} (h : digit? c = some d) : d ≤ 9 := by
  unfold digit? at h
  split at h
  · next hc =>
    cases h
    simp only [Char.isDigit, Bool.and_eq_true, decide_eq_true_eq] at hc
    have hle : c.toNat ≤ 57 := hc.2
    exact Nat.sub_le_of_le_add hle
  · cases h

theorem start?_digit {c : Char} {d : Nat} (h : digit? c = some d) : start? c = some (lead false d) := by
  have hc : c ≠ '-' := by rintro rfl; cases h
  rw [start?, if_neg hc, h]
  rfl

/-- A digit more, as long as it fits. -/
theorem step_lead {c : Char} {n d : Nat} (hn : n ≠ 0) (hd : digit? c = some d) (hfits : n * 10 + d ≤ maxDigits) :
    (lead false n).step c = .more (lead false (n * 10 + d)) := by
  have hmore : n * 10 + d ≠ 0 := by omega
  simp only [step, lead, hn, hmore, if_false, hd, hfits, if_true]

theorem value?_lead (n : Nat) : (lead false n).value? = some (.natural n.toUInt64) := by
  unfold lead value?
  by_cases hn : n = 0 <;> simp [hn, wholeValue]

/-- Only digits without a sign make a whole number from zero up. -/
theorem part_of_value? {m : Numeral} {n : UInt64} (h : m.value? = some (.natural n)) :
    m.negative = false ∧ (m.part = .zero ∨ m.part = .whole) := by
  have hsigned : ∀ x, m.signed x ≠ .natural n := fun x => nofun
  have hscaled : ∀ x : Option Float, x.map m.signed ≠ some (.natural n) := by
    intro x hx
    obtain ⟨y, -, hy⟩ := Option.map_eq_some_iff.mp hx
    exact hsigned y hy
  have hwhole : m.wholeValue = .natural n → m.negative = false := by
    intro hm
    unfold wholeValue at hm
    split at hm
    · next hneg => simpa using hneg
    · split at hm <;> cases hm
  unfold value? at h
  split at h
  · next hp => exact ⟨hwhole (Option.some.inj h), .inl hp⟩
  · next hp => exact ⟨hwhole (Option.some.inj h), .inr hp⟩
  · cases h
  · exact absurd h (hscaled _)
  · exact absurd h (hscaled _)

theorem afterDigits_more {n n' : Numeral} {pointed : Bool} {c : Char} (h : n.afterDigits pointed c = .more n') :
    n'.part = .point ∨ n'.part = .mark := by
  unfold afterDigits at h
  split at h
  · cases h; exact .inl rfl
  split at h
  · cases h; exact .inr rfl
  · cases h

theorem fractionDigit_part (n : Numeral) (d : Nat) :
    (n.fractionDigit d).part = .fraction ∨ (n.fractionDigit d).part = .fractionExcess := by
  unfold fractionDigit
  split
  · exact .inl rfl
  · exact .inr rfl

theorem powerDigit_more {n n' : Numeral} {below : Bool} {size d : Nat} (h : n.powerDigit below size d = .more n') :
    (∃ size', n'.part = .power below size') ∨ n'.part = .vanishing := by
  unfold powerDigit at h
  split at h
  · cases h; exact .inl ⟨_, rfl⟩
  split at h
  · cases h
  · cases h; exact .inr rfl

/-- The parts of a numeral that are digits alone, or not even that. -/
def Part.isPlain : Part → Bool
  | .sign | .zero | .whole => true
  | _ => false

/-- How a numeral comes to be digits alone. -/
theorem step_plain {n n' : Numeral} {c : Char} (h : n.step c = .more n') (hplain : n'.part.isPlain = true) :
    ∃ d, digit? c = some d ∧ (n.part = .sign ∧ n' = lead n.negative d ∨
      n.part = .whole ∧ n.digits * 10 + d ≤ maxDigits ∧ n' = { n with digits := n.digits * 10 + d }) := by
  have hafter : ∀ {pointed}, n.afterDigits pointed c ≠ .more n' := by
    intro pointed h'
    rcases afterDigits_more h' with hp | hp <;> rw [hp] at hplain <;> cases hplain
  have hfraction : ∀ {d}, Step.more (n.fractionDigit d) ≠ .more n' := by
    rintro d ⟨⟩
    rcases n.fractionDigit_part d with hp | hp <;> rw [hp] at hplain <;> cases hplain
  have hpower : ∀ {below size d}, n.powerDigit below size d ≠ .more n' := by
    intro below size d h'
    rcases powerDigit_more h' with ⟨_, hp⟩ | hp <;> rw [hp] at hplain <;> cases hplain
  unfold step at h
  split at h
  · next d hp hd => cases h; exact ⟨d, hd, .inl ⟨hp, rfl⟩⟩
  · cases h
  · cases h
  · exact absurd h hafter
  · next d hp hd =>
    split at h
    · next hfits => cases h; exact ⟨d, hd, .inr ⟨hp, hfits, rfl⟩⟩
    · cases h; cases hplain
  · exact absurd h hafter
  · next hp _ => cases h; rw [hp] at hplain; cases hplain
  · exact absurd h hafter
  · exact absurd h hfraction
  · cases h
  · exact absurd h hfraction
  · exact absurd h hafter
  · next hp _ => cases h; rw [hp] at hplain; cases hplain
  · exact absurd h hafter
  · exact absurd h hpower
  · split at h
    · cases h; cases hplain
    split at h
    · cases h; cases hplain
    · cases h
  · exact absurd h hpower
  · cases h
  · exact absurd h hpower
  · cases h
  · next hp _ => cases h; rw [hp] at hplain; cases hplain
  · cases h

end Numeral

/-- Digits are read one after another. -/
theorem SpellsNatural.numeral {w : List Char} {n : Nat} (h : SpellsNatural w n) (hfits : n ≤ Numeral.maxDigits) :
    SpellsNumeral w (.lead false n) := by
  induction h with
  | digit hd => exact .start (Numeral.start?_digit hd)
  | @snoc w c n d _ hn hd ih => exact .more (ih (by omega)) (Numeral.step_lead hn hd hfits)

/-- A numeral without a sign that is digits alone is their number. -/
theorem SpellsNumeral.natural {w : List Char} {m : Numeral} (h : SpellsNumeral w m) (hplain : m.part.isPlain = true) :
    m.negative = false → ∃ n, m = .lead false n ∧ n ≤ Numeral.maxDigits ∧ SpellsNatural w n := by
  induction h with
  | @start c m hc =>
    intro hnegative
    unfold Numeral.start? at hc
    split at hc
    · cases hc; cases hnegative
    · obtain ⟨d, hd, rfl⟩ := Option.map_eq_some_iff.mp hc
      have hle := Numeral.digit?_le hd
      exact ⟨d, rfl, by unfold Numeral.maxDigits UInt64.size; omega, .digit hd⟩
  | @more w c m m' _ hstep ih =>
    intro hnegative
    rcases Numeral.step_plain hstep hplain with ⟨d, hd, ⟨hp, rfl⟩ | ⟨hp, hfits, rfl⟩⟩
    · -- Only a minus sign stands before the digits.
      obtain ⟨n, rfl, -⟩ := ih (by rw [hp]; rfl) hnegative
      unfold Numeral.lead at hp
      split at hp <;> cases hp
    · obtain ⟨n, rfl, -, hw⟩ := ih (by rw [hp]; rfl) hnegative
      have hn : n ≠ 0 := by rintro rfl; cases hp
      have hmore : n * 10 + d ≠ 0 := by omega
      refine ⟨n * 10 + d, ?_, hfits, .snoc hw hn hd⟩
      simp only [Numeral.lead, hn, hmore, if_false]

/-- **Natural numbers of 64 bits are spelled by their digits**, and by nothing else. -/
theorem spells_natural_iff {d : Nat} {w : List Char} {n : UInt64} :
    Spells d w (.number (.natural n)) ↔ SpellsNatural w n.toNat := by
  constructor
  · intro h
    cases h with
    | word hw => cases hw
    | number hw _ hvalue =>
      obtain ⟨hnegative, hpart⟩ := Numeral.part_of_value? hvalue
      obtain ⟨k, rfl, hk, hdigits⟩ := hw.natural (by rcases hpart with hp | hp <;> rw [hp] <;> rfl) hnegative
      rw [Numeral.value?_lead] at hvalue
      have hn : n = k.toUInt64 := by cases hvalue; rfl
      have hsize : k < 2 ^ 64 := by unfold Numeral.maxDigits UInt64.size at hk; omega
      rw [hn, Nat.toUInt64_eq, UInt64.toNat_ofNat_of_lt' hsize]
      exact hdigits
  · intro h
    have hsize := n.toNat_lt
    have hfits : n.toNat ≤ Numeral.maxDigits := by unfold Numeral.maxDigits UInt64.size; omega
    refine .number (h.numeral hfits) ?_ ?_
    · unfold Numeral.lead Numeral.isComplete
      by_cases hn : n.toNat = 0 <;> simp [hn]
    · rw [Numeral.value?_lead, Nat.toUInt64_eq, UInt64.ofNat_toNat]

end Pinpoint.Json
