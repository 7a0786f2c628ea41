/-!
# Words in decimal

Numbers of 64 bits, read from decimal digits.
-/

namespace Pinpoint.Decimal

/-- A number of 64 bits in decimal digits, perhaps after a plus sign. -/
def word? (text : String) : Option UInt64 :=
  let digits := match text.toList with
    | '+' :: digits => digits
    | digits => digits
  if digits ≠ [] ∧ digits.all Char.isDigit then
    let n := Nat.ofDigitChars 10 digits 0
    if n < UInt64.size then some n.toUInt64 else none
  else none

end Pinpoint.Decimal
