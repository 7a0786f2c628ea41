import Pinpoint.Decimal.Shortest
import Pinpoint.Json.Value

/-!
# Writing JSON

A value as text, in two layouts: `compact` on one line without spaces, and `pretty` with one item or member a line,
indented by two spaces a level. Members are written in the order they stand in.
-/

namespace Pinpoint.Json

/-! ## Texts and numbers -/

/-- One character inside the quotes: quotes, backslashes and controls are escaped. -/
def writeChar (c : Char) : List Char :=
  if c = '"' then ['\\', '"']
  else if c = '\\' then ['\\', '\\']
  else if c = '\x08' then ['\\', 'b']
  else if c = '\x0c' then ['\\', 'f']
  else if c = '\n' then ['\\', 'n']
  else if c = '\r' then ['\\', 'r']
  else if c = '\t' then ['\\', 't']
  else if c < ' ' then ['\\', 'u', '0', '0', (c.toNat / 16).digitChar, (c.toNat % 16).digitChar]
  else [c]

def writeText (s : String) : List Char := '"' :: s.toList.flatMap writeChar ++ ['"']

def Number.write : Number → List Char
  | .natural n => Nat.toDigits 10 n.toNat
  | .negative n => '-' :: Nat.toDigits 10 n.toInt.natAbs
  | .binary x => Decimal.text x

namespace Value

/-! ## One line -/

mutual

/-- The value on one line. -/
def writeCompact : Value → List Char
  | .null => ['n', 'u', 'l', 'l']
  | .bool true => ['t', 'r', 'u', 'e']
  | .bool false => ['f', 'a', 'l', 's', 'e']
  | .number n => n.write
  | .text s => writeText s
  | .list [] => ['[', ']']
  | .list (v :: vs) => '[' :: (v.writeCompact ++ compactItems vs)
  | .object [] => ['{', '}']
  | .object ((k, v) :: ms) => '{' :: (writeText k ++ ':' :: v.writeCompact ++ compactMembers ms)
termination_by structural v => v

/-- The items after the first, and the closing bracket. -/
def compactItems : List Value → List Char
  | [] => [']']
  | v :: vs => ',' :: (v.writeCompact ++ compactItems vs)
termination_by structural vs => vs

/-- The members after the first, and the closing brace. -/
def compactMembers : List (String × Value) → List Char
  | [] => ['}']
  | (k, v) :: ms => ',' :: (writeText k ++ ':' :: v.writeCompact ++ compactMembers ms)
termination_by structural ms => ms

end

def compact (v : Value) : String := String.ofList v.writeCompact

/-! ## One item a line -/

/-- A new line at a level of indentation. -/
def newLine (level : Nat) : List Char := '\n' :: List.replicate (2 * level) ' '

mutual

/-- The value, its lines after the first indented by `level`. -/
def writePretty (level : Nat) : Value → List Char
  | .null => ['n', 'u', 'l', 'l']
  | .bool true => ['t', 'r', 'u', 'e']
  | .bool false => ['f', 'a', 'l', 's', 'e']
  | .number n => n.write
  | .text s => writeText s
  | .list [] => ['[', ']']
  | .list (v :: vs) => '[' :: (newLine (level + 1) ++ v.writePretty (level + 1) ++ prettyItems level vs)
  | .object [] => ['{', '}']
  | .object ((k, v) :: ms) =>
    '{' :: (newLine (level + 1) ++ writeText k ++ ':' :: ' ' :: v.writePretty (level + 1) ++ prettyMembers level ms)
termination_by structural v => v

/-- The items after the first, and the closing bracket. -/
def prettyItems (level : Nat) : List Value → List Char
  | [] => newLine level ++ [']']
  | v :: vs => ',' :: (newLine (level + 1) ++ v.writePretty (level + 1) ++ prettyItems level vs)
termination_by structural vs => vs

/-- The members after the first, and the closing brace. -/
def prettyMembers (level : Nat) : List (String × Value) → List Char
  | [] => newLine level ++ ['}']
  | (k, v) :: ms =>
    ',' :: (newLine (level + 1) ++ writeText k ++ ':' :: ' ' :: v.writePretty (level + 1) ++ prettyMembers level ms)
termination_by structural ms => ms

end

def pretty (v : Value) : String := String.ofList (v.writePretty 0)

end Value

end Pinpoint.Json
