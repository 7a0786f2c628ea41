import Pinpoint.Log.Directive

/-!
# Log filters

Which events reach the log. A filter is given as directives between commas. Of the directives about an event the most
specific decides, and of those the last. A directive that asks for a span or for the value of a field never decides, for
no event of a run has a span around it and the value of its field is not looked at.
-/

namespace Pinpoint

structure LogFilter where
  directives : List Directive
  deriving DecidableEq, Repr, Inhabited

namespace LogFilter

/-- The filter with one directive about every event. -/
def flat (v : Verbosity) : LogFilter := ⟨[{ verbosity := v }]⟩

/-- The directive that decides about the event. -/
def decisive? (f : LogFilter) (e : Event) : Option Directive :=
  (f.directives.filter fun d => d.isUnconditional && d.concerns e).foldl
    (fun best d => if best.all (Directive.isWithin · d) then some d else best) none

/-- An event about which no directive decides does not pass. -/
def passes (f : LogFilter) (e : Event) : Bool := (f.decisive? e).any fun d => d.verbosity.admits e.importance

/-- The filter that a text of directives gives; some are no directives at all. Without any only errors pass. -/
def ofText? (text : String) : Option LogFilter :=
  match ((text.splitOn ",").filter (· ≠ "")).mapM Directive.ofText? with
  | none => none
  | some [] => some (flat ⟨some .error⟩)
  | some ds => some ⟨ds⟩

/-- The filter of a run: a verbose one logs more whatever the directives say, and without directives that can be read
only warnings and errors pass. -/
def ofRun (verbose : Bool) (directives : Option String) : LogFilter :=
  if verbose then flat ⟨some .debug⟩ else (directives.bind ofText?).getD (flat ⟨some .warn⟩)

end LogFilter

end Pinpoint
