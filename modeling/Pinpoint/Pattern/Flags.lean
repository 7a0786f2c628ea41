import Pinpoint.Text.Blank

/-!
# Flags

A pattern can change, for a group or for the rest of one, how its signs are read. The flags that say how lines, dots and
repetitions match change nothing about which patterns are well formed, so they are read and not kept.
-/

namespace Pinpoint.Pattern

structure Flags where
  /-- A letter stands for both of its cases. -/
  ignoreCase : Bool := false
  /-- What matches is characters, and not bytes. -/
  unicode : Bool := true
  /-- Blanks are left out, and comments from a number sign to the end of the line. -/
  spaced : Bool := false
  deriving DecidableEq, Repr, Inhabited

namespace Flags

/-! ## Blanks and comments -/

/-- What follows the blanks and comments, from inside a comment or not. -/
def dropComments : Bool → List Char → List Char
  | _, [] => []
  | true, c :: cs => dropComments (c ≠ '\n') cs
  | false, c :: cs =>
    if Text.isBlank c then dropComments false cs
    else if c = '#' then dropComments true cs
    else c :: cs

/-- What there is to read, without the blanks and comments in front if they are left out. -/
def skip (f : Flags) (cs : List Char) : List Char := if f.spaced then dropComments false cs else cs

/-- The next character, looked at and not read. Blanks in front are left out, but of comments only the number sign of
the first. -/
def peek? (f : Flags) (cs : List Char) : Option Char :=
  if f.spaced then
    match cs.dropWhile Text.isBlank with
    | '#' :: cs => (cs.dropWhile Text.isBlank).head?
    | cs => cs.head?
  else cs.head?

/-! ## Setting flags -/

/-- The letters of flags, and the dash after which they are taken away. -/
def signs : List Char := ['i', 'm', 's', 'U', 'u', 'R', 'x', '-']

/-- The flags with one more given or taken away, by its letter. -/
def put (f : Flags) (sign : Char) (on : Bool) : Flags :=
  match sign with
  | 'i' => { f with ignoreCase := on }
  | 'u' => { f with unicode := on }
  | 'x' => { f with spaced := on }
  | _ => f

/-- The flags that signs leave in force, and the text from the colon or parenthesis on that ends the signs. Those read
so far are given, the last of them in front: none comes twice, the dash is not the last, and a parenthesis needs one. -/
def read? (f : Flags) (seen : List Char) : List Char → Option (Flags × List Char)
  | [] => none
  | c :: cs =>
    if c = ':' || c = ')' && seen ≠ [] then
      if seen.head? = some '-' then none else some (f, c :: cs)
    else if signs.contains c && !seen.contains c then read? (f.put c (!seen.contains '-')) (c :: seen) cs
    else none

end Flags

end Pinpoint.Pattern
