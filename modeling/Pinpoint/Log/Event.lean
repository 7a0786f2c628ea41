import Pinpoint.Options.Basic
import Pinpoint.Json.Writer
import Pinpoint.Severity.Basic
import Pinpoint.Source.Range
import Pinpoint.Text.Inert

/-!
# The log

Everything that is repaired, skipped or counted on the way leaves an event. An event has an importance and a target, the
part of the program that it comes from, and the wording of its line is in `Event.text` alone.
-/

namespace Pinpoint

/-- The importance of an event, the most important first. -/
inductive Importance where
  | error
  | warn
  | info
  | debug
  | trace
  deriving DecidableEq, Repr, Inhabited

namespace Importance

def name : Importance → String
  | .error => "ERROR"
  | .warn => "WARN"
  | .info => "INFO"
  | .debug => "DEBUG"
  | .trace => "TRACE"

def rank : Importance → Nat
  | .error => 1
  | .warn => 2
  | .info => 3
  | .debug => 4
  | .trace => 5

end Importance

inductive Event where
  /-- A diagnostic of the stream, with its number. -/
  | recordRead (number : Nat) (level message : String)
  | recordSkipped (reason : String)
  | levelUnknown (level : String) (used : Severity)
  | codeIgnored (v : Json.Value)
  | childSkipped
  | rangeReversed (start stop : Position)
  | streamRead (diagnostics records : Nat)
  | optionsGiven (o : Options)
  /-- Nothing came back from the worker that had the input. -/
  | resultMissing (input : String)
  | inputsCollected (count : Nat)
  /-- The depth of the deepest span of an input. -/
  | chainMeasured (input : String) (depth : Nat)
  deriving Repr, Inhabited

namespace Event

def importance : Event → Importance
  | .levelUnknown _ _ | .codeIgnored _ | .childSkipped | .rangeReversed _ _ | .resultMissing _ => .warn
  | .recordRead _ _ _ => .trace
  | .recordSkipped _ | .streamRead _ _ | .optionsGiven _ | .inputsCollected _ | .chainMeasured _ _ => .debug

/-- The target by which a log directive names the event. -/
def target : Event → String
  | .optionsGiven _ | .chainMeasured _ _ => "cargo_e_msg"
  | .resultMissing _ | .inputsCollected _ => "cargo_e_msg::e_collect"
  | .recordRead _ _ _ | .recordSkipped _ | .childSkipped | .streamRead _ _ => "cargo_e_msg::e_msg_parser"
  | .codeIgnored _ => "cargo_e_msg::e_rustc_json"
  | .levelUnknown _ _ => "cargo_e_msg::e_severity"
  | .rangeReversed _ _ => "cargo_e_msg::e_location"

/-- The name of the one field of an event, which holds its text. -/
def field : String := "message"

def text : Event → String
  | .recordRead number level message => "record #" ++ number.repr ++ ": " ++ level ++ " " ++ Text.quote message
  | .recordSkipped reason => "skipping cargo message with reason " ++ Text.quote reason
  | .levelUnknown level used => "unknown diagnostic level " ++ Text.quote level ++ ", using " ++ used.name
  | .codeIgnored v => "ignoring diagnostic code of unexpected shape: " ++ v.compact
  | .childSkipped => "skipping child diagnostic without level or message"
  | .rangeReversed start stop => "reversed range " ++ start.text ++ "-" ++ stop.text ++ ", collapsing onto start"
  | .streamRead diagnostics records =>
    "parsed " ++ diagnostics.repr ++ " diagnostic(s) from " ++ records.repr ++ " record(s)"
  | .optionsGiven o => "CLI options: " ++ o.text
  | .resultMissing input => "no result for " ++ input ++ "; its worker panicked"
  | .inputsCollected count => "collected " ++ count.repr ++ " input(s)"
  | .chainMeasured input depth => input ++ ": deepest macro chain " ++ depth.repr

/-- The line of the log. -/
def line (e : Event) : String := e.importance.name ++ " " ++ e.text

/-- The text as a terminal is shown it. -/
def shown (e : Event) : String := Text.inert e.text

end Event

/-! ## Results with their log -/

/-- A result and the events on the way to it. -/
structure Logged (α : Type) where
  events : List Event
  result : α
  deriving Repr, Inhabited

namespace Logged

/-- The result changed, the log kept. -/
def map (f : α → β) (l : Logged α) : Logged β := ⟨l.events, f l.result⟩

/-- Events in front. -/
def prepend (events : List Event) (l : Logged α) : Logged α := ⟨events ++ l.events, l.result⟩

end Logged

end Pinpoint
