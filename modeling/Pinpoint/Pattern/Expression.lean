import Pinpoint.Pattern.CharSet
import Pinpoint.Text.Alphanumeric

/-!
# Regular expressions

Which texts are regular expressions. An expression is a row of pieces, or several such rows with bars between them: a
piece is an atom, a dot, a set of characters, an expression in parentheses, a setting of flags, or a piece that is
repeated. Braces, for a counted repetition, are not known. No part may lie more than 250 deep.

The text is read once, from the left, by a machine with a stack of the groups that are open.
-/

namespace Pinpoint.Pattern

/-! ## Groups -/

/-- A group that is not closed yet, or the whole expression. -/
structure Group where
  /-- In force for what follows in the group. -/
  flags : Flags := {}
  /-- The alternatives before the present one. -/
  alternatives : Row := {}
  /-- The pieces of the present alternative. -/
  pieces : Row := {}
  /-- The depth of the last piece, if it may be repeated. -/
  last : Option Nat := none
  deriving DecidableEq, Repr, Inhabited

namespace Group

def add (g : Group) (depth : Nat) : Group := { g with pieces := g.pieces.add depth, last := some depth }

/-- The last piece repeated: one deeper than it was. -/
def repeatLast? (g : Group) : Option Group :=
  g.last.map fun d =>
    { g with pieces := { g.pieces with deepest := max g.pieces.deepest (d + 1) }, last := some (d + 1) }

/-- The flags are set for what follows. -/
def set (g : Group) (f : Flags) : Group := { g with flags := f, pieces := g.pieces.add 0, last := none }

/-- The group after a bar. -/
def alternate (g : Group) : Group :=
  { g with alternatives := g.alternatives.add g.pieces.depth, pieces := {}, last := none }

/-- The depth of what is in the group. -/
def depth (g : Group) : Nat := g.alternate.alternatives.depth

end Group

/-! ## Reading an expression -/

/-- The innermost group that is open, those around it, and the names given to groups so far. -/
structure Reading where
  group : Group := {}
  outer : List Group := []
  names : List (List Char) := []
  deriving DecidableEq, Repr, Inhabited

namespace Reading

/-- The reading inside a new group. -/
def enter (r : Reading) (f : Flags) : Reading :=
  { r with group := { flags := f }, outer := r.group :: r.outer }

/-- The reading after the innermost group, which the expression itself is not. -/
def leave? (r : Reading) : Option Reading :=
  match r.outer with
  | [] => none
  | around :: outer => some { r with group := around.add (r.group.depth + 1), outer }

end Reading

/-- The name of a group up to an angle bracket, and what follows: letters, numbers and a few signs, and at first only a
letter or an underscore. -/
def readName? (cs : List Char) : Option (List Char × List Char) :=
  match cs.span (· ≠ '>') with
  | (c :: name, _ :: cs) =>
    if (c = '_' || Text.isAlphabetic c) && name.all isNameChar then some (c :: name, cs) else none
  | _ => none
where
  isNameChar (c : Char) : Bool := ['_', '.', '[', ']'].contains c || Text.isAlphanumeric c

/-- After an opening parenthesis: a group with a name, one with flags, a setting of flags or a plain group. -/
def readOpening? (r : Reading) (cs : List Char) : Option (Reading × List Char) :=
  let f := r.group.flags
  match f.skip cs with
  | '?' :: 'P' :: '<' :: cs | '?' :: '<' :: cs => do
    let (name, cs) ← readName? cs
    if r.names.contains name then none else some ({ r.enter f with names := name :: r.names }, cs)
  | '?' :: cs => do
    match ← f.read? [] cs with
    | (f, ':' :: cs) => some (r.enter f, cs)
    | (f, cs) => some ({ r with group := r.group.set f }, cs.drop 1)
  | cs => some (r.enter f, cs)

/-- One more part that begins with the character, and what follows it. -/
def readPart? (r : Reading) (c : Char) (cs : List Char) : Option (Reading × List Char) :=
  let g := r.group
  match c with
  | '(' => readOpening? r cs
  | ')' => r.leave?.map (·, cs)
  | '|' => some ({ r with group := g.alternate }, cs)
  | '[' => (CharSet.read? g.flags cs).map fun (d, cs) => ({ r with group := g.add d }, cs)
  | '*' | '+' | '?' =>
    g.repeatLast?.map fun g => ({ r with group := g }, if cs.head? = some '?' then cs.drop 1 else cs)
  | '{' => none
  | '^' | '$' => some ({ r with group := g.add 0 }, cs)
  | '.' => if g.flags.unicode then some ({ r with group := g.add 0 }, cs) else none
  | c => do
    let (a, cs) ← Atom.read? g.flags c cs
    if g.flags.admits a then some ({ r with group := g.add 0 }, cs) else none

/-- How deep the parts of an expression may lie. -/
def maxDepth : Nat := 250

/-- The text can be read to its end, no group is left open there, and no part lies too deep. The first number bounds how
many parts are read. -/
def isExpressionFrom : Nat → Reading → List Char → Bool
  | fuel, r, cs =>
    match r.group.flags.skip cs, fuel with
    | [], _ => r.outer = [] && r.group.depth ≤ maxDepth
    | _, 0 => false
    | c :: cs, fuel + 1 =>
      match readPart? r c cs with
      | none => false
      | some (r, cs) => isExpressionFrom fuel r cs

/-- The text is a regular expression. -/
def isExpression (cs : List Char) : Bool := isExpressionFrom cs.length {} cs

end Pinpoint.Pattern
