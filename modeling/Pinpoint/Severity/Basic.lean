/-!
# Severities

A problem has one of four severities. A diagnostic names its own with a level: six levels have a severity of their own,
and any other level goes to the severity whose word occurs in it, so that no level is refused.
-/

namespace Pinpoint

inductive Severity where
  | error
  | warning
  | info
  | help
  deriving DecidableEq, Repr, Inhabited

namespace Severity

/-! ## Names and ranking -/

/-- The word that stands for a severity in every output. -/
def name : Severity → String
  | .error => "error"
  | .warning => "warning"
  | .info => "info"
  | .help => "help"

/-- The place in the ranking, the gravest first. -/
def rank : Severity → Nat
  | .error => 0
  | .warning => 1
  | .info => 2
  | .help => 3

instance : Ord Severity := ⟨fun a b => compare a.rank b.rank⟩

def all : List Severity := [.error, .warning, .info, .help]

/-- Inverse of `name`. -/
def ofName? (word : String) : Option Severity := all.find? (·.name = word)

theorem ofName?_name (s : Severity) : ofName? s.name = some s := by cases s <;> decide

/-! ## Levels -/

/-- The levels with a severity of their own. -/
def ofKnownLevel? : String → Option Severity
  | "error" => some .error
  | "error: internal compiler error" => some .error
  | "warning" => some .warning
  | "note" => some .info
  | "failure-note" => some .info
  | "help" => some .help
  | _ => none

/-- `word` stands somewhere in the text. -/
def occurs (word : List Char) : List Char → Bool
  | [] => word.isEmpty
  | c :: cs => word.isPrefixOf (c :: cs) || occurs word cs

/-- The severity whose word occurs in the level, with ASCII letters of either case: the first of error, warning and
help, and `info` for none. -/
def closest (level : String) : Severity :=
  let letters := level.toList.map Char.toLower
  if occurs "error".toList letters then .error
  else if occurs "warn".toList letters then .warning
  else if occurs "help".toList letters then .help
  else .info

/-- Every level has a severity. -/
def ofLevel (level : String) : Severity := (ofKnownLevel? level).getD (closest level)

end Severity

end Pinpoint
