import Pinpoint.Message.Basic
import Pinpoint.Source.Path

/-!
# Problems

A problem is one located message, ready to be shown beside a line of source. A message gives one problem for each of its
spans, in their order; a primary span that a macro made gives a second one, at the invocation of the macro.
-/

namespace Pinpoint

structure Problem where
  path : String
  range : SourceRange
  severity : Severity
  text : String
  deriving DecidableEq, Repr, Inhabited

/-- The problem on one line, as long as its text is on one. -/
def Problem.line (p : Problem) : String :=
  SourcePath.display p.path ++ ":" ++ p.range.start.text ++ ": " ++ p.severity.name ++ ": " ++ p.text

namespace Message

/-- The text and, in brackets, the code. -/
def header (m : Message) : String :=
  match m.code with
  | none | some "" => m.text ++ ":"
  | some code => m.text ++ " [" ++ code ++ "]:"

/-- The header and a line for each note. -/
def headerWithNotes (m : Message) : String := (m.notes.getD []).foldl (fun s note => s ++ "\n" ++ note) m.header

/-- The problem of a span: a primary one shows the whole message and then its label, any other its label alone. -/
def spanProblem (m : Message) (n : Node) : Problem :=
  let (severity, text) :=
    if n.isPrimary then
      (m.severity,
        match n.site.caption? with
        | none => m.headerWithNotes
        | some label => m.headerWithNotes ++ "\n" ++ label)
    else (n.site.severity, n.site.caption?.getD "")
  ⟨n.site.path, n.site.range, severity, text⟩

/-- The problem at the invocation of the macro that made a primary span. -/
def invocationProblem? (m : Message) (n : Node) : Option Problem :=
  match n.isPrimary, n.invocation with
  | true, some site => some ⟨site.site.path, site.site.range, .info, m.headerWithNotes⟩
  | _, _ => none

/-- The problems of a message, span by span. -/
def problems (m : Message) : List Problem :=
  m.spans.flatMap fun n => m.spanProblem n :: (m.invocationProblem? n).toList

end Message

/-- The problems of all messages, in order. -/
def problemsOf (messages : List Message) : List Problem := messages.flatMap Message.problems

end Pinpoint
