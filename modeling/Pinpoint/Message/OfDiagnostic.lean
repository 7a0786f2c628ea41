import Pinpoint.Diagnostic.Basic
import Pinpoint.Message.Basic
import Pinpoint.Source.Path

/-!
# Messages from diagnostics

The tree of a span has the shape of the span. A primary place has the severity of the whole message and any other is for
information; ranges are normalised, pseudo files and empty labels dropped. The notes are the messages of the children
that annotate.
-/

namespace Pinpoint

/-- The tree of a span in a message of the given severity. -/
def Node.ofSpan (severity : Severity) : Span → Node
  | ⟨fileName, start, stop, isPrimary, label, invocation, definition⟩ =>
    { site :=
        { path := SourcePath.ofFileName fileName
          range := .between start stop
          severity := if isPrimary then severity else .info
          label := label.filter (· ≠ "") }
      isPrimary
      invocation := match invocation with | none => none | some s => some (ofSpan severity s)
      definition := match definition with | none => none | some s => some (ofSpan severity s) }

def Message.ofDiagnostic (d : Diagnostic) : Message :=
  let severity := Severity.ofLevel d.level
  .make d.message severity d.code.name? (some (d.children.filterMap Child.note?))
    (d.spans.map (Node.ofSpan severity))

end Pinpoint
