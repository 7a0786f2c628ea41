import Pinpoint.Text.Hexadecimal

/-!
# Bytes of texts

How many bytes the characters of a text take in UTF-8.
-/

namespace Pinpoint.Text

def bytes : List Char → Nat
  | [] => 0
  | c :: w => c.utf8Size + bytes w

@[simp] theorem bytes_nil : bytes [] = 0 := rfl

@[simp] theorem bytes_cons (c : Char) (w : List Char) : bytes (c :: w) = c.utf8Size + bytes w := rfl

@[simp] theorem bytes_append (u w : List Char) : bytes (u ++ w) = bytes u + bytes w := by
  induction u with
  | nil => rw [List.nil_append, bytes_nil, Nat.zero_add]
  | cons c u ih => rw [List.cons_append, bytes_cons, bytes_cons, ih, Nat.add_assoc]

theorem eq_nil_of_bytes {w : List Char} (h : bytes w = 0) : w = [] := by
  cases w with
  | nil => rfl
  | cons c w =>
    have hpos := c.utf8Size_pos
    rw [bytes_cons] at h
    omega

/-- A text is cut in one way only after so many bytes. -/
theorem append_inj_of_bytes {u u' w w' : List Char} (h : u ++ w = u' ++ w') (hbytes : bytes u = bytes u') :
    u = u' ∧ w = w' := by
  induction u generalizing u' with
  | nil =>
    obtain rfl := eq_nil_of_bytes hbytes.symm
    exact ⟨rfl, h⟩
  | cons c u ih =>
    cases u' with
    | nil => exact absurd (eq_nil_of_bytes hbytes) (List.cons_ne_nil c u)
    | cons c' u' =>
      obtain ⟨rfl, htail⟩ := List.cons_eq_cons.mp h
      obtain ⟨rfl, hw⟩ := ih htail (Nat.add_left_cancel hbytes)
      exact ⟨rfl, hw⟩

/-- The size of a string counts its characters' bytes. -/
theorem utf8ByteSize_ofList (w : List Char) : (String.ofList w).utf8ByteSize = bytes w := by
  induction w with
  | nil => rfl
  | cons c w ih => rw [String.ofList_cons, String.utf8ByteSize_append, String.utf8ByteSize_singleton, ih, bytes_cons]

theorem utf8ByteSize_eq_bytes (s : String) : s.utf8ByteSize = bytes s.toList := by
  rw [← utf8ByteSize_ofList, String.ofList_toList]

/-- Hexadecimal digits are ASCII characters. -/
theorem utf8Size_of_hexDigit? {c : Char} {n : Nat} (h : hexDigit? c = some n) : c.utf8Size = 1 := by
  have hle : c.val ≤ 0x7f := by
    simp only [hexDigit?] at h
    split at h
    · next hd => simp only [Char.isDigit, Bool.and_eq_true, decide_eq_true_eq] at hd; grind
    split at h
    · next hd => simp only [Char.le_def] at hd; grind
    split at h
    · next hd => simp only [Char.le_def] at hd; grind
    · cases h
  simp [Char.utf8Size, hle]

end Pinpoint.Text
