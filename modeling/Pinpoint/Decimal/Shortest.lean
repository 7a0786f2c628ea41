/-!
# Shortest decimals

The decimal text of a 64-bit binary number: of the decimals that read back as the number, those with the fewest digits,
and of these the nearest. The number is an exact fraction `mantissa · 2 ^ exponent` throughout, so that every choice is
a comparison of naturals. `Binary.shortest` chooses the digits and `Layout.render` places the point.
-/

namespace Pinpoint.Decimal

/-! ## The number as a fraction -/

/-- A finite positive number `mantissa · 2 ^ exponent`. -/
structure Binary where
  mantissa : Nat
  exponent : Int
  /-- The number below lies half as far away as the number above. -/
  narrowBelow : Bool

/-- The magnitude of a finite number with the given bits. -/
def Binary.ofBits (bits : UInt64) : Binary :=
  let exponent := (bits >>> 52 &&& 0x7FF).toNat
  let fraction := (bits &&& 0xFFFFFFFFFFFFF).toNat
  if exponent = 0 then ⟨fraction, -1074, false⟩
  else ⟨0x10000000000000 + fraction, (exponent : Int) - 1075, fraction = 0 && exponent > 1⟩

/-- `digits · 10 ^ exponent`. -/
structure Scaled where
  digits : Nat
  exponent : Int
  deriving DecidableEq, Repr

/-- The part of `b ^ e` above the fraction bar: the power itself, or one when the exponent is negative. -/
def above (b : Nat) (e : Int) : Nat := Nat.pow b e.toNat

/-- Compares `a · 10 ^ i` with `n · 2 ^ j`. -/
def compareScaled (a : Nat) (i : Int) (n : Nat) (j : Int) : Ordering :=
  compare (a * above 10 i * above 2 (-j)) (n * above 2 j * above 10 (-i))

/-- The decimal lies among the reals that round to the number, the ends included when the mantissa is even. -/
def Binary.readsBack (x : Binary) (d : Scaled) : Bool :=
  let low := if x.narrowBelow then 4 * x.mantissa - 1 else 4 * x.mantissa - 2
  let high := 4 * x.mantissa + 2
  let even := x.mantissa % 2 = 0
  let fromLow := compareScaled d.digits d.exponent low (x.exponent - 2)
  let toHigh := compareScaled d.digits d.exponent high (x.exponent - 2)
  (fromLow = .gt || even && fromLow = .eq) && (toHigh = .lt || even && toHigh = .eq)

/-! ## The choice of digits -/

/-- The numerator and denominator of the number. -/
def Binary.fraction (x : Binary) : Nat × Nat := (x.mantissa * above 2 x.exponent, above 2 (-x.exponent))

/-- The least `k` with the number below `10 ^ k`. -/
def Binary.scale (x : Binary) : Int :=
  let (num, den) := x.fraction
  if den ≤ num then (Nat.toDigits 10 (num / den)).length
  else
    let width := (Nat.toDigits 10 (den / num)).length
    if num * Nat.pow 10 (width - 1) = den then 2 - (width : Int) else 1 - (width : Int)

/-- The better of the two neighbours of the number among the multiples of `10 ^ exponent`, of those that read back. A
tie goes to the even one. -/
def Binary.neighbour (x : Binary) (exponent : Int) : Option Scaled :=
  let (num, den) := x.fraction
  let unit := den * above 10 exponent
  let below := num * above 10 (-exponent) / unit
  let twice := compare (2 * num * above 10 (-exponent)) ((2 * below + 1) * unit)
  let first := if twice = .gt || twice = .eq && below % 2 = 1 then below + 1 else below
  let second := 2 * below + 1 - first
  if x.readsBack ⟨first, exponent⟩ then some ⟨first, exponent⟩
  else if x.readsBack ⟨second, exponent⟩ then some ⟨second, exponent⟩
  else none

/-- The number itself as a decimal. -/
def Binary.exact (x : Binary) : Scaled :=
  if 0 ≤ x.exponent then ⟨x.mantissa * above 2 x.exponent, 0⟩ else ⟨x.mantissa * above 5 (-x.exponent), x.exponent⟩

/-- Trailing zeros go into the exponent, as many as `fuel` allows. -/
def Scaled.strip (d : Scaled) : (fuel : Nat) → Scaled
  | 0 => d
  | fuel + 1 => if d.digits % 10 = 0 then strip ⟨d.digits / 10, d.exponent + 1⟩ fuel else d

/-- The first of the grids of one, two, … seventeen digits that has a decimal that reads back. -/
def Binary.shortest (x : Binary) : Scaled :=
  let found := (List.range 17).findSome? fun width => x.neighbour (x.scale - (width + 1 : Nat))
  let d := found.getD x.exact
  d.strip (Nat.toDigits 10 d.digits).length

/-! ## Layout -/

/-- Where the point goes: a number whose leading digit counts `10 ^ p` is written in positions for
`plainFrom ≤ p < plainBelow` and with a signed exponent otherwise. -/
structure Layout where
  plainFrom : Int
  plainBelow : Int

/-- At least one digit follows the point in positions; none need follow it before an exponent. -/
def Layout.render (layout : Layout) (d : Scaled) : List Char :=
  let digits := Nat.toDigits 10 d.digits
  let lead := d.exponent + digits.length - 1
  if layout.plainFrom ≤ lead ∧ lead < layout.plainBelow then
    if 0 ≤ d.exponent then digits ++ List.replicate d.exponent.toNat '0' ++ ['.', '0']
    else if 0 ≤ lead then digits.take (lead.toNat + 1) ++ '.' :: digits.drop (lead.toNat + 1)
    else '0' :: '.' :: List.replicate ((-lead).toNat - 1) '0' ++ digits
  else
    let power := (if lead < 0 then '-' else '+') :: Nat.toDigits 10 lead.natAbs
    digits.take 1 ++ (if digits.length = 1 then [] else '.' :: digits.drop 1) ++ 'e' :: power

/-- The layout of the numbers in messages: positions from `0.00001` to below `10 ^ 16`. -/
def messageLayout : Layout where
  plainFrom := -5
  plainBelow := 16

/-- The text of a finite number; what is no number has the text of the missing value. -/
def text (x : Float) : List Char :=
  let bits := x.toBits
  if bits >>> 52 &&& 0x7FF = 0x7FF then "null".toList
  else
    let sign := if bits >>> 63 = 1 then ['-'] else []
    let magnitude := Binary.ofBits bits
    sign ++ if magnitude.mantissa = 0 then "0.0".toList else messageLayout.render magnitude.shortest

end Pinpoint.Decimal
