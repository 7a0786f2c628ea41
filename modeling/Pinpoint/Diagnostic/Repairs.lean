import Pinpoint.Diagnostic.Basic
import Pinpoint.Log.Event

/-!
# Repairs

What making a message has to put right in a diagnostic, in the order in which it meets it: the level, the code, the
children, and then each span before the spans of its macro.
-/

namespace Pinpoint

/-- An unknown level counts as the closest severity. -/
def Severity.repairs (level : String) : List Event :=
  if (ofKnownLevel? level).isSome then [] else [.levelUnknown level (closest level)]

/-- A reversed range collapses. -/
def SourceRange.repairs (start stop : Position) : List Event :=
  if Reversed start stop then [.rangeReversed start stop] else []

def Code.repairs : Code → List Event
  | .odd v => [.codeIgnored v]
  | .absent | .named _ => []

def Child.repairs (c : Child) : List Event := if c.isIncomplete then [.childSkipped] else []

def Span.repairs : Span → List Event
  | ⟨_, start, stop, _, _, invocation, definition⟩ =>
    SourceRange.repairs start stop ++ (match invocation with | none => [] | some s => s.repairs) ++
      (match definition with | none => [] | some s => s.repairs)

def Diagnostic.repairs (d : Diagnostic) : List Event :=
  Severity.repairs d.level ++ d.code.repairs ++ d.children.flatMap Child.repairs ++ d.spans.flatMap Span.repairs

end Pinpoint
