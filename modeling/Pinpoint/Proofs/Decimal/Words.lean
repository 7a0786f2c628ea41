import Pinpoint.Decimal.Word

/-!
# Words of numbers

Which words are numbers of 64 bits: decimal digits, zeros in front of them included, and perhaps a plus sign. Each of
them is read as its number (`word?_of_isWord`), and each number has such a word (`isWord_repr`).
-/

namespace Pinpoint.Decimal

/-- The word is the number in decimal digits, perhaps after a plus sign. -/
inductive IsWord (n : UInt64) (word : String) : Prop
  | digits {ds : List Char} : word.toList = ds ∨ word.toList = '+' :: ds → ds ≠ [] →
      (∀ c ∈ ds, c.isDigit = true) → Nat.ofDigitChars 10 ds 0 = n.toNat → IsWord n word

/-- A word begins with a digit or the plus sign. -/
theorem IsWord.first {n : UInt64} {word : String} (h : IsWord n word) :
    ∃ c rest, word.toList = c :: rest ∧ (c = '+' ∨ c.isDigit = true) := by
  cases h with
  | @digits ds hword hne hdigits _ =>
    rcases hword with hword | hword
    · obtain ⟨c, rest, rfl⟩ := List.exists_cons_of_ne_nil hne
      exact ⟨c, rest, hword, .inr (hdigits c List.mem_cons_self)⟩
    · exact ⟨'+', ds, hword, .inl rfl⟩

/-- Words are read as their numbers. -/
theorem word?_of_isWord {n : UInt64} {word : String} (h : IsWord n word) : word? word = some n := by
  cases h with
  | @digits ds hword hne hdigits hvalue =>
    have hplus : ∀ rest, ds ≠ '+' :: rest := by
      rintro rest rfl
      cases hdigits '+' List.mem_cons_self
    have hread : word? word =
        if ds ≠ [] ∧ ds.all Char.isDigit then
          if Nat.ofDigitChars 10 ds 0 < UInt64.size then some (Nat.ofDigitChars 10 ds 0).toUInt64 else none
        else none := by
      rcases hword with hword | hword
      · simp only [word?, hword]
      · simp only [word?, hword]
    rw [hread, if_pos ⟨hne, List.all_eq_true.mpr hdigits⟩, hvalue, if_pos n.toNat_lt]
    exact congrArg some UInt64.ofNat_toNat

/-- Every number has a word: its own digits. -/
theorem isWord_repr (n : UInt64) : IsWord n n.toNat.repr := by
  apply IsWord.digits (.inl Nat.toList_repr)
  · exact Nat.toDigits_ne_nil
  · intro c hc
    exact Nat.isDigit_of_mem_toDigits (by decide) (by decide) hc
  · exact Nat.ofDigitChars_ten_toDigits

end Pinpoint.Decimal
