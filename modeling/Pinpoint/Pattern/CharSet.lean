import Pinpoint.Pattern.Atom
import Pinpoint.Pattern.Nesting

/-!
# Sets of characters

A set in brackets holds characters, ranges of them, named classes and further sets, and operators on all that stands
before and after them. Of a set that is read only its depth is kept.
-/

namespace Pinpoint.Pattern

/-- A set that is not closed yet: the depth of what stands before its last operator, and the items after that. -/
structure OpenSet where
  left : Option Nat := none
  items : Row := {}
  deriving DecidableEq, Repr, Inhabited

namespace OpenSet

def depth (s : OpenSet) : Nat :=
  match s.left with
  | none => s.items.depth
  | some left => max left s.items.depth + 1

def add (s : OpenSet) (depth : Nat) : OpenSet := { s with items := s.items.add depth }

/-- The set after an operator. -/
def operate (s : OpenSet) : OpenSet := { left := some s.depth }

end OpenSet

/-- Where in a set the reading stands. -/
inductive SetPlace where
  /-- After the bracket. -/
  | first
  /-- After the caret that follows the bracket. -/
  | negated
  /-- After dashes with only these in front. -/
  | dashes
  | inside
  deriving DecidableEq, Repr

namespace CharSet

/-! ## Items -/

/-- The classes of ASCII characters that have a name. -/
def classNames : List String :=
  ["alnum", "alpha", "ascii", "blank", "cntrl", "digit", "graph", "lower", "print", "punct", "space", "upper", "word",
    "xdigit"]

/-- Whether the named class after a bracket is negated, and what follows it; nothing if none stands there. -/
def readClass? (cs : List Char) : Option (Bool × List Char) :=
  match cs with
  | ':' :: '^' :: cs => readName true cs
  | ':' :: cs => readName false cs
  | _ => none
where
  readName (negated : Bool) (cs : List Char) : Option (Bool × List Char) :=
    match cs.span (· ≠ ':') with
    | (name, ':' :: ']' :: cs) => if classNames.contains (String.ofList name) then some (negated, cs) else none
    | _ => none

/-- What follows the character or range that begins with the character. A dash before a bracket or another dash makes no
range. -/
def readItem? (f : Flags) (c : Char) (cs : List Char) : Option (List Char) := do
  let (a, cs) ← Atom.read? f c cs
  let alone := if f.admitsInSet a then some cs else none
  match f.skip cs with
  | '-' :: cs =>
    if f.peek? cs = some ']' || f.peek? cs = some '-' then alone
    else match f.skip cs with
      | [] => none
      | c :: cs =>
        let (b, cs) ← Atom.read? f c cs
        if f.admitsRange a b then some cs else none
  | _ => alone

/-! ## Sets -/

/-- The depth of the outermost set and what follows it, given the innermost set that is open and those around it. The
first number bounds how many characters, items and brackets are read. -/
def readFrom (f : Flags) : Nat → SetPlace → OpenSet → List OpenSet → List Char → Option (Nat × List Char)
  | 0, _, _, _, _ => none
  | fuel + 1, place, s, outer, cs =>
    match f.skip cs with
    | [] => none
    | c :: cs =>
      if place = .first && c = '^' then
        if f.unicode then readFrom f fuel .negated s outer cs else none
      else if place ≠ .inside && c = '-' then
        if f.admitsInSet (.literal c false) then readFrom f fuel .dashes (s.add 0) outer cs else none
      else if (place = .first || place = .negated) && c = ']' then
        if f.admitsInSet (.literal c false) then readFrom f fuel .inside (s.add 0) outer cs else none
      else match c, cs with
        | '[', cs =>
          match readClass? cs with
          | some (negated, cs) => if f.admitsClass negated then readFrom f fuel .inside (s.add 0) outer cs else none
          | none => readFrom f fuel .first {} (s :: outer) cs
        | ']', cs =>
          match outer with
          | [] => some (s.depth + 1, cs)
          | around :: outer => readFrom f fuel .inside (around.add (s.depth + 1)) outer cs
        | '&', '&' :: cs | '-', '-' :: cs | '~', '~' :: cs => readFrom f fuel .inside s.operate outer cs
        | c, cs => (readItem? f c cs).bind (readFrom f fuel .inside (s.add 0) outer)

/-- The depth of the set that follows a bracket, and what follows it. -/
def read? (f : Flags) (cs : List Char) : Option (Nat × List Char) := readFrom f cs.length .first {} [] cs

end CharSet

end Pinpoint.Pattern
