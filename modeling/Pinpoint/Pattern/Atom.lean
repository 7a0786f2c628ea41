import Pinpoint.Pattern.Flags
import Pinpoint.Text.Hexadecimal

/-!
# Atoms

The smallest parts of a pattern, and which of them the flags in force admit. A pattern on characters is read without
knowledge of their properties: so it has no word characters and no letters in two cases. A pattern on bytes must still
match whole characters: so it has no single byte outside of ASCII and nothing that stands for such bytes.
-/

namespace Pinpoint.Pattern

inductive Atom where
  /-- A character that stands for itself, perhaps given by the number of a byte. -/
  | literal (c : Char) (byByte : Bool)
  /-- The digits, the blanks or the characters of words, or all the others. -/
  | shorthand (negated : Bool)
  /-- An end of the text or of a line. -/
  | edge
  /-- An end of a word, or the lack of one. -/
  | wordEdge
  deriving DecidableEq, Repr, Inhabited

/-! ## Reading an atom -/

namespace Atom

/-- What a letter or sign after a backslash means. -/
def ofEscape? (c : Char) : Option Atom :=
  match c with
  | 'd' | 's' | 'w' => some (.shorthand false)
  | 'D' | 'S' | 'W' => some (.shorthand true)
  | 'A' | 'z' => some .edge
  | 'b' | 'B' | '<' | '>' => some .wordEdge
  | 'a' => some (.literal '\x07' false)
  | 'f' => some (.literal '\x0c' false)
  | 't' => some (.literal '\t' false)
  | 'n' => some (.literal '\n' false)
  | 'r' => some (.literal '\r' false)
  | 'v' => some (.literal '\x0b' false)
  | c => if c.toNat < 0x80 && !c.isAlphanum then some (.literal c false) else none

/-- The number of so many hexadecimal digits, after a number that was read, and what follows. -/
def readCode? (f : Flags) : Nat → Nat → List Char → Option (Nat × List Char)
  | 0, code, cs => some (code, f.skip cs)
  | n + 1, code, cs =>
    match f.skip cs with
    | [] => none
    | c :: cs => (Text.hexDigit? c).bind fun d => readCode? f n (16 * code + d) cs

/-- The character of so many hexadecimal digits. -/
def readChar? (f : Flags) (digits : Nat) (cs : List Char) : Option (Char × List Char) := do
  let (code, cs) ← readCode? f digits 0 cs
  if code.isValidChar then some (Char.ofNat code, cs) else none

/-- The atom that begins with the character, and what follows. -/
def read? (f : Flags) (c : Char) (cs : List Char) : Option (Atom × List Char) :=
  if c ≠ '\\' then some (.literal c false, cs)
  else match cs with
    | [] => none
    | 'x' :: cs => (readChar? f 2 cs).map fun (c, cs) => (.literal c true, cs)
    | 'u' :: cs => (readChar? f 4 cs).map fun (c, cs) => (.literal c false, cs)
    | 'U' :: cs => (readChar? f 8 cs).map fun (c, cs) => (.literal c false, cs)
    | c :: cs => (ofEscape? c).map (·, cs)

end Atom

/-! ## What the flags admit -/

namespace Flags

/-- The atom may stand in a pattern, outside of sets. -/
def admits (f : Flags) : Atom → Bool
  | .literal c byByte => if f.unicode then !f.ignoreCase else !(byByte && 0x80 ≤ c.toNat)
  | .shorthand negated => !f.unicode && !negated
  | .edge => true
  | .wordEdge => !f.unicode

/-- The atom may stand in a set. -/
def admitsInSet (f : Flags) : Atom → Bool
  | .literal c _ => if f.unicode then !f.ignoreCase else c.toNat < 0x80
  | .shorthand negated => !f.unicode && !negated
  | .edge | .wordEdge => false

/-- The characters from one atom up to another may stand in a set. -/
def admitsRange (f : Flags) : Atom → Atom → Bool
  | .literal c b, .literal c' b' => c ≤ c' && f.admitsInSet (.literal c b) && f.admitsInSet (.literal c' b')
  | _, _ => false

/-- A class of ASCII characters, or all the others, may stand in a set. -/
def admitsClass (f : Flags) (negated : Bool) : Bool := if f.unicode then !f.ignoreCase else !negated

end Flags

end Pinpoint.Pattern
