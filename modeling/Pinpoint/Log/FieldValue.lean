import Pinpoint.Pattern.Expression

/-!
# Field values

The values that a log directive may ask a field to have: a truth value, a number or a regular expression. Only the form
of a value matters here. Truth values, and numbers without a plus sign in front, have the form of an expression as well,
so `isFieldValue` asks for an expression or for a number after a plus sign.
-/

namespace Pinpoint

/-- A decimal number without a sign, with a point or an exponent or without, or the name of one that is not finite. -/
def isUnsignedNumber (cs : List Char) : Bool :=
  let (whole, rest) := cs.span Char.isDigit
  let (fraction, rest) := match rest with
    | '.' :: rest => rest.span Char.isDigit
    | rest => ([], rest)
  let exponent (cs : List Char) : Bool := cs ≠ [] && cs.all Char.isDigit
  ["inf", "infinity", "nan"].contains (String.ofList (cs.map Char.toLower)) ||
    (whole ≠ [] || fraction ≠ []) && match rest with
      | [] => true
      | e :: '+' :: rest | e :: '-' :: rest | e :: rest => (e = 'e' || e = 'E') && exponent rest

/-- A value that a field may be asked to have. -/
def isFieldValue (text : String) : Bool :=
  match text.toList with
  | '+' :: cs => isUnsignedNumber cs
  | cs => Pattern.isExpression cs

end Pinpoint
