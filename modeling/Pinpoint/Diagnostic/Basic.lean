import Pinpoint.Json.Value
import Pinpoint.Source.Range

/-!
# Diagnostics as a compiler reports them

A diagnostic has a message, a level, a code, child diagnostics and spans. A span that a macro made knows the span where
the macro was invoked and the span where it was defined, either of which may come from a macro in its turn; so a span is
a binary tree.
-/

namespace Pinpoint

/-- The code of a diagnostic. -/
inductive Code where
  | absent
  | named (name : String)
  /-- A value that names no code. -/
  | odd (v : Json.Value)
  deriving Repr, Inhabited, BEq

def Code.name? : Code → Option String
  | .named name => some name
  | .absent | .odd _ => none

/-- A diagnostic that hangs below another one. -/
structure Child where
  message : Option String
  level : Option String
  deriving DecidableEq, Repr, Inhabited

/-- Levels of children that annotate a diagnostic. -/
def isNoteLevel (level : String) : Bool := level = "note" ∨ level = "help" ∨ level = "failure-note"

/-- The note that a child makes. -/
def Child.note? (c : Child) : Option String :=
  match c.level, c.message with
  | some level, some message => if isNoteLevel level then some message else none
  | _, _ => none

/-- A child without level or message can be no note. -/
def Child.isIncomplete (c : Child) : Bool := c.level.isNone || c.message.isNone

/-- A place in a source file that a diagnostic points at. -/
structure Span where
  fileName : Option String
  start : Position
  stop : Position
  isPrimary : Bool
  label : Option String
  /-- Where the macro that made this span was invoked. -/
  invocation : Option Span
  /-- Where the macro that made this span was defined. -/
  definition : Option Span
  deriving Repr, Inhabited, BEq

structure Diagnostic where
  message : String
  code : Code
  level : String
  spans : List Span
  children : List Child
  deriving Repr, Inhabited, BEq

end Pinpoint
