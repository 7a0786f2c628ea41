import Pinpoint.Severity.Basic

/-!
# Tallies

How many problems of each severity were seen.
-/

namespace Pinpoint

structure Tally where
  errors : Nat := 0
  warnings : Nat := 0
  infos : Nat := 0
  helps : Nat := 0
  deriving DecidableEq, Repr, Inhabited

namespace Tally

def empty : Tally := {}

def add (t : Tally) : Severity → Tally
  | .error => { t with errors := t.errors + 1 }
  | .warning => { t with warnings := t.warnings + 1 }
  | .info => { t with infos := t.infos + 1 }
  | .help => { t with helps := t.helps + 1 }

def ofList (severities : List Severity) : Tally := severities.foldl add empty

def count (t : Tally) : Severity → Nat
  | .error => t.errors
  | .warning => t.warnings
  | .info => t.infos
  | .help => t.helps

def total (t : Tally) : Nat := t.errors + t.warnings + t.infos + t.helps

theorem count_add (t : Tally) (s s' : Severity) : (t.add s).count s' = t.count s' + if s = s' then 1 else 0 := by
  cases s <;> cases s' <;> rfl

theorem total_add (t : Tally) (s : Severity) : (t.add s).total = t.total + 1 := by
  cases s <;> simp only [add, total] <;> omega

/-- The tally as the summary of an input shows it. -/
def text (t : Tally) : String :=
  t.errors.repr ++ " errors, " ++ t.warnings.repr ++ " warnings, " ++ t.infos.repr ++ " infos, " ++
    t.helps.repr ++ " helps"

end Tally

end Pinpoint
