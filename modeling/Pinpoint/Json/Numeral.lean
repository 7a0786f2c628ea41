import Pinpoint.Json.Fault
import Pinpoint.Json.Value

/-!
# Numerals

A numeral is read one character at a time. It keeps the leading digits that fit in 64 bits together with a power of ten;
whole digits beyond those raise the power, fraction digits beyond those are dropped. `Numeral.value` is the number: the
digits themselves when the numeral is whole and no digit was dropped, and otherwise the digits times the power of ten in
64-bit binary arithmetic.
-/

namespace Pinpoint.Json

/-- How far a numeral has been read. -/
inductive Numeral.Part where
  /-- A minus sign. -/
  | sign
  /-- A leading zero. -/
  | zero
  /-- Whole digits, all of them kept. -/
  | whole
  /-- Whole digits, the last of them dropped. -/
  | excess
  /-- The point. -/
  | point
  /-- Fraction digits, all of them kept. -/
  | fraction
  /-- Fraction digits, the last of them dropped. -/
  | fractionExcess
  /-- The exponent mark. -/
  | mark
  /-- The sign of the exponent. -/
  | markSign (below : Bool)
  /-- Digits of the exponent, with its size so far. -/
  | power (below : Bool) (size : Nat)
  /-- Digits of an exponent that makes the number zero. -/
  | vanishing
  deriving DecidableEq, Repr

structure Numeral where
  negative : Bool
  digits : Nat
  scale : Int
  part : Numeral.Part
  deriving DecidableEq, Repr

namespace Numeral

/-! ## Reading -/

/-- The largest number of 64 bits. -/
def maxDigits : Nat := UInt64.size - 1

/-- The largest exponent that is read to its end. -/
def maxPower : Nat := UInt32.size / 2 - 1

def digit? (c : Char) : Option Nat := if c.isDigit then some (c.toNat - '0'.toNat) else none

/-- A numeral that the first digit `d` begins. -/
def lead (negative : Bool) (d : Nat) : Numeral := ⟨negative, d, 0, if d = 0 then .zero else .whole⟩

/-- The numeral that a character begins. -/
def start? (c : Char) : Option Numeral :=
  if c = '-' then some ⟨true, 0, 0, .sign⟩ else (digit? c).map (lead false)

/-- What a character does to a numeral. -/
inductive Step where
  | more (n : Numeral)
  | fail (t : Trouble)
  /-- The character is no part of the numeral. -/
  | ended
  deriving DecidableEq, Repr

/-- A point or exponent mark after digits, or the end of the numeral. -/
def afterDigits (n : Numeral) (pointed : Bool) (c : Char) : Step :=
  if c = '.' ∧ ¬pointed then .more { n with part := .point }
  else if c = 'e' ∨ c = 'E' then .more { n with part := .mark }
  else .ended

/-- A fraction digit, kept if it fits. -/
def fractionDigit (n : Numeral) (d : Nat) : Numeral :=
  if n.digits * 10 + d ≤ maxDigits then { n with digits := n.digits * 10 + d, scale := n.scale - 1, part := .fraction }
  else { n with part := .fractionExcess }

/-- A digit of the exponent. One that makes the exponent too large to be read is a trouble, unless the number is zero
whatever the exponent. -/
def powerDigit (n : Numeral) (below : Bool) (size d : Nat) : Step :=
  if size * 10 + d ≤ maxPower then .more { n with part := .power below (size * 10 + d) }
  else if n.digits ≠ 0 ∧ ¬below then .fail (.here .numberTooLarge)
  else .more { n with part := .vanishing }

/-- The numeral with one more character. -/
def step (n : Numeral) (c : Char) : Step :=
  match n.part, digit? c with
  | .sign, some d => .more (lead n.negative d)
  | .sign, none => .fail (.here .invalidNumber)
  | .zero, some _ => .fail (.here .invalidNumber)
  | .zero, none => n.afterDigits false c
  | .whole, some d =>
    if n.digits * 10 + d ≤ maxDigits then .more { n with digits := n.digits * 10 + d }
    else .more { n with scale := n.scale + 1, part := .excess }
  | .whole, none => n.afterDigits false c
  | .excess, some _ => .more { n with scale := n.scale + 1 }
  | .excess, none => n.afterDigits false c
  | .point, some d => .more (n.fractionDigit d)
  | .point, none => .fail (.here .invalidNumber)
  | .fraction, some d => .more (n.fractionDigit d)
  | .fraction, none => n.afterDigits true c
  | .fractionExcess, some _ => .more n
  | .fractionExcess, none => n.afterDigits true c
  | .mark, some d => n.powerDigit false 0 d
  | .mark, none =>
    if c = '+' then .more { n with part := .markSign false }
    else if c = '-' then .more { n with part := .markSign true }
    else .fail (.here .invalidNumber)
  | .markSign below, some d => n.powerDigit below 0 d
  | .markSign _, none => .fail (.here .invalidNumber)
  | .power below size, some d => n.powerDigit below size d
  | .power _ _, none => .ended
  | .vanishing, some _ => .more n
  | .vanishing, none => .ended

/-- The numeral may end here. -/
def isComplete (n : Numeral) : Bool :=
  match n.part with
  | .sign | .point | .mark | .markSign _ => false
  | _ => true

/-! ## The number -/

/-- The largest power of ten among the 64-bit binary numbers. -/
def maxTens : Nat := 308

def tens (n : Nat) : Float := Float.ofScientific 1 false n

/-- Division by `10 ^ n`, in steps when the power is too large to be a number. -/
def divideByTens (x : Float) (n : Nat) : Float :=
  if n ≤ maxTens then x / tens n
  else if x == 0 then x
  else divideByTens (x / tens maxTens) (n - maxTens)
  termination_by n
  decreasing_by simp_all [maxTens]; omega

/-- `digits · 10 ^ scale`, unless it is too large to be a number. -/
def scaled? (digits : Nat) (scale : Int) : Option Float :=
  let x := digits.toUInt64.toFloat
  if scale < 0 then some (divideByTens x scale.natAbs)
  else if scale.toNat ≤ maxTens then
    let y := x * tens scale.toNat
    if y.isInf then none else some y
  else if x == 0 then some x
  else none

def signed (n : Numeral) (x : Float) : Number := .binary (if n.negative then -x else x)

/-- The number of a numeral of whole digits, all of them kept. Minus zero is no whole number. -/
def wholeValue (n : Numeral) : Number :=
  if ¬n.negative then .natural n.digits.toUInt64
  else if 0 < n.digits ∧ n.digits ≤ UInt64.size / 2 then .negative (Int64.ofInt (-n.digits))
  else n.signed n.digits.toUInt64.toFloat

/-- The number of a complete numeral, unless it is too large. -/
def value? (n : Numeral) : Option Number :=
  match n.part with
  | .zero | .whole => some n.wholeValue
  | .vanishing => some (n.signed 0)
  | .power below size => (scaled? n.digits (if below then n.scale - size else n.scale + size)).map n.signed
  | _ => (scaled? n.digits n.scale).map n.signed

end Numeral

end Pinpoint.Json
