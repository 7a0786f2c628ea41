import Pinpoint.Text.Hexadecimal
import Pinpoint.Text.Hidden

/-!
# Quoted text

Text inside double quotes, as messages show a string that they mention: quotes, backslashes and hidden characters are
escaped, all else stands for itself.
-/

namespace Pinpoint.Text

/-- One character inside the quotes. -/
def quoteChar (c : Char) : List Char :=
  if c = '"' then ['\\', '"']
  else if c = '\\' then ['\\', '\\']
  else if c = '\n' then ['\\', 'n']
  else if c = '\r' then ['\\', 'r']
  else if c = '\t' then ['\\', 't']
  else if c = '\x00' then ['\\', '0']
  else if isHidden c then ['\\', 'u', '{'] ++ hexDigits c.toNat ++ ['}']
  else [c]

/-- The text in double quotes. -/
def quote (s : String) : String := String.ofList ('"' :: s.toList.flatMap quoteChar ++ ['"'])

end Pinpoint.Text
