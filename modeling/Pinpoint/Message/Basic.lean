import Pinpoint.Severity.Basic
import Pinpoint.Source.Range

/-!
# Messages

A message is what a diagnostic comes to once it is cleaned: its text, severity, code and notes, and a tree of places for
each of its spans. A node of the tree has two branches, for the invocation and for the definition of the macro that made
it.
-/

namespace Pinpoint

/-- A place in a source file with its severity and caption. -/
structure Site where
  path : String
  range : SourceRange
  severity : Severity
  label : Option String
  deriving DecidableEq, Repr, Inhabited

/-- The caption, where it says anything. -/
def Site.caption? (s : Site) : Option String := s.label.filter (· ≠ "")

/-- A place that a message points at, and the macro that made it. -/
structure Node where
  site : Site
  isPrimary : Bool
  /-- Where the macro was invoked. -/
  invocation : Option Node
  /-- Where the macro was defined. -/
  definition : Option Node
  deriving Repr, Inhabited

namespace Node

/-- A primary place that no macro made. -/
def leaf (site : Site) : Node := ⟨site, true, none, none⟩

/-- Equality of trees is decided branch by branch. -/
def decideEq : (a b : Node) → Decidable (a = b)
  | ⟨s, p, i, d⟩, ⟨s', p', i', d'⟩ =>
    have hi : Decidable (i = i') := match i, i' with
      | none, none => isTrue rfl
      | some a, some b =>
        match decideEq a b with
        | isTrue h => isTrue (h ▸ rfl)
        | isFalse h => isFalse fun e => h (Option.some.inj e)
      | none, some _ => isFalse nofun
      | some _, none => isFalse nofun
    have hd : Decidable (d = d') := match d, d' with
      | none, none => isTrue rfl
      | some a, some b =>
        match decideEq a b with
        | isTrue h => isTrue (h ▸ rfl)
        | isFalse h => isFalse fun e => h (Option.some.inj e)
      | none, some _ => isFalse nofun
      | some _, none => isFalse nofun
    decidable_of_iff (s = s' ∧ p = p' ∧ i = i' ∧ d = d') (by simp)

instance : DecidableEq Node := decideEq

/-- The number of links on the longest way down. -/
def depth : Node → Nat
  | ⟨_, _, invocation, definition⟩ =>
    max (match invocation with | none => 0 | some n => n.depth + 1)
      (match definition with | none => 0 | some n => n.depth + 1)

end Node

structure Message where
  text : String
  severity : Severity
  code : Option String
  notes : Option (List String)
  spans : List Node
  deriving DecidableEq, Repr, Inhabited

namespace Message

/-- A message whose code and notes are absent rather than empty. -/
def make (text : String) (severity : Severity) (code : Option String) (notes : Option (List String))
    (spans : List Node) : Message :=
  ⟨text, severity, code.filter (· ≠ ""), notes.filter (· ≠ []), spans⟩

/-- The depth of the deepest span. -/
def depth (m : Message) : Nat := (m.spans.map Node.depth).foldl max 0

end Message

end Pinpoint
