import Pinpoint.Problem.Basic

/-!
# Problems as plain text

The plain form of a problem is its line, with the continuation lines of its text indented and, where colours are wanted,
the severity in colour.
-/

namespace Pinpoint

/-- The control sequence that sets a display attribute. -/
def control (code : String) : String := "\x1b[" ++ code ++ "m"

/-- The severity as a terminal shows it: errors and warnings bold, the others in colour only. -/
def Severity.colored (s : Severity) : String :=
  match s with
  | .error => control "38;5;9" ++ control "1" ++ s.name ++ control "0"
  | .warning => control "38;5;11" ++ control "1" ++ s.name ++ control "0"
  | .info => control "38;5;14" ++ s.name ++ control "39"
  | .help => control "38;5;10" ++ s.name ++ control "39"

/-- The text with the lines after its first indented by four spaces. -/
def indentContinuations (text : String) : String :=
  String.ofList (text.toList.flatMap fun c => if c = '\n' then ['\n', ' ', ' ', ' ', ' '] else [c])

/-- The problem in plain form. -/
def Problem.plain (p : Problem) (color : Bool) : String :=
  SourcePath.display p.path ++ ":" ++ p.range.start.text ++ ": " ++
    (if color then p.severity.colored else p.severity.name) ++ ": " ++ indentContinuations p.text

end Pinpoint
