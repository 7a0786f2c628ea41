import Pinpoint.Input.Pool
import Pinpoint.Log.Filter
import Pinpoint.Problem.Json
import Pinpoint.Problem.Plain
import Pinpoint.Severity.Tally

/-!
# Runs

A run collects its inputs and reports on each in turn: a block of output, a notice and, in the log, the depth of its
deepest span. Only the layout and the messages of an input go into its report. In which order the inputs are read is up
to a schedule.
-/

namespace Pinpoint

/-! ## Layouts -/

/-- All that decides what the output looks like. -/
structure Layout where
  format : Format
  color : Bool
  /-- The trees of the messages are shown in place of their problems. -/
  tree : Bool
  deriving DecidableEq, Repr, Inhabited

/-- The layout on or off a terminal. -/
def Options.layout (o : Options) (onTerminal : Bool) : Layout := ⟨o.format, o.coloring.applies onTerminal, o.tree⟩

namespace Layout

/-- The line of a problem on the output. -/
def line (l : Layout) (p : Problem) : String :=
  match l.format with
  | .plain => p.plain l.color
  | .json => p.jsonLine

/-- The output for the messages of an input. -/
def block (l : Layout) (messages : List Message) : String :=
  if l.tree then (treesJson messages).pretty ++ "\n"
  else String.join ((problemsOf messages).map fun p => l.line p ++ "\n")

end Layout

/-- The severities of all problems, counted. -/
def tallyOf (messages : List Message) : Tally := .ofList ((problemsOf messages).map Problem.severity)

/-! ## One input -/

namespace Collected

/-- The output for an input; nothing for one without messages. -/
def block (c : Collected) (l : Layout) : String :=
  match c.messages with
  | .error _ => ""
  | .ok messages => l.block messages

/-- What is said about an input: the error, or a summary of the problems. -/
def notice (c : Collected) (l : Layout) : String :=
  match c.messages with
  | .error e => "error: " ++ e.text ++ "\n"
  | .ok messages =>
    if l.tree then ""
    else
      c.name ++ ": " ++ messages.length.repr ++ " diagnostic(s), " ++ (tallyOf messages).text ++ "\n"

def events (c : Collected) : List Event :=
  match c.messages with
  | .error _ => []
  | .ok messages => [.chainMeasured c.name ((messages.map Message.depth).foldl max 0)]

def failed (c : Collected) : Bool := !c.messages.isOk

end Collected

/-! ## All inputs -/

/-- What a run lets out. -/
inductive Emission where
  | output (s : String)
  | notice (s : String)
  | event (e : Event)
  deriving Repr, Inhabited

namespace Emission

/-- What goes to the output. -/
def written : Emission → String
  | .output s => s
  | _ => ""

/-- What goes to the error output and does not belong to the log. -/
def noted : Emission → String
  | .notice s => s
  | _ => ""

/-- Of the events only those get out that pass the filter. -/
def passes (f : LogFilter) : Emission → Bool
  | .event e => f.passes e
  | _ => true

end Emission

def Collected.emissions (c : Collected) (l : Layout) : List Emission :=
  c.events.map .event ++ [.output (c.block l), .notice (c.notice l)]

/-- All that a run lets out, in order, and its exit code. -/
structure Report where
  exitCode : Nat
  emissions : List Emission
  deriving Repr, Inhabited

namespace Report

def output (r : Report) : String := String.join (r.emissions.map Emission.written)

def notices (r : Report) : String := String.join (r.emissions.map Emission.noted)

/-- The events that pass a filter. -/
def log (r : Report) (f : LogFilter) : List Event :=
  r.emissions.filterMap fun | .event e => if f.passes e then some e else none | _ => none

/-- The report with a filter on its log. -/
def filtered (r : Report) (f : LogFilter) : Report := { r with emissions := r.emissions.filter (Emission.passes f) }

end Report

/-- The report on what was collected. The run fails if an input did and such inputs are not to be skipped. -/
def report (o : Options) (onTerminal : Bool) (collected : Logged (List Collected)) : Report :=
  { exitCode := if collected.result.any Collected.failed && !o.skipInvalid then 1 else 0
    emissions := .event (.optionsGiven o) :: collected.events.map .event ++
      collected.result.flatMap fun c => c.emissions (o.layout onTerminal) }

/-- A run on or off a terminal whose inputs are read as the schedule has it. -/
def runBy (o : Options) (s : Surroundings) (onTerminal : Bool) (moves : List Pool.Move) : Report :=
  report o onTerminal (s.collectPooled o.jobs o.inputNames moves)

/-- A run that reads its inputs one after the other. -/
def run (o : Options) (s : Surroundings) (onTerminal : Bool) : Report :=
  runBy o s onTerminal (Pool.inOrder o.inputNames.length)

end Pinpoint
