import Pinpoint.Text.Hexadecimal

/-!
# Inert text

Text that a terminal only shows. The controls that start or end a terminal's own sequences, move its cursor back or
clear it are spelled out; line ends and tabs stay.
-/

namespace Pinpoint.Text

/-- One character, spelled out if a terminal would act on it: escape, bell, backspace, form feed and delete by their two
digits, the controls from U+0080 to U+009F by their code point. -/
def inertChar (c : Char) : List Char :=
  match c with
  | '\x1b' => ['\\', 'x', '1', 'b']
  | '\x07' => ['\\', 'x', '0', '7']
  | '\x08' => ['\\', 'x', '0', '8']
  | '\x0c' => ['\\', 'x', '0', 'c']
  | '\x7f' => ['\\', 'x', '7', 'f']
  | c => if 0x80 ≤ c.toNat ∧ c.toNat ≤ 0x9F then ['\\', 'u', '{'] ++ hexDigits c.toNat ++ ['}'] else [c]

def inert (s : String) : String := String.ofList (s.toList.flatMap inertChar)

end Pinpoint.Text
