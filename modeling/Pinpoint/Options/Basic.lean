import Pinpoint.Text.Quoted

/-!
# Options

What a command line asks for.
-/

namespace Pinpoint

/-- The form of the problems on the output. -/
inductive Format where
  | plain
  | json
  deriving DecidableEq, Repr, Inhabited

/-- The word for a format on the command line. -/
def Format.name : Format → String
  | .plain => "plain"
  | .json => "json"

/-- When to colour the output. -/
inductive Coloring where
  /-- On a terminal. -/
  | auto
  | always
  | never
  deriving DecidableEq, Repr, Inhabited

/-- The word for a coloring on the command line. -/
def Coloring.name : Coloring → String
  | .auto => "auto"
  | .always => "always"
  | .never => "never"

structure Options where
  inputs : List String := []
  format : Format := .plain
  coloring : Coloring := .auto
  /-- How many inputs may be read at once. -/
  jobs : UInt64 := 4
  skipInvalid : Bool := false
  tree : Bool := false
  verbose : Bool := false
  deriving DecidableEq, Repr, Inhabited

/-- Whether a run on a terminal, or not on one, colours its output. -/
def Coloring.applies (c : Coloring) (onTerminal : Bool) : Bool :=
  match c with
  | .auto => onTerminal
  | .always => true
  | .never => false

/-- The name of the standard input among the inputs. -/
def standardInput : String := "-"

namespace Options

/-- The inputs to read; without any, the standard input. -/
def inputNames (o : Options) : List String := if o.inputs.isEmpty then [standardInput] else o.inputs

/-- Every option with the text of its value. -/
def fields (o : Options) : List (String × String) :=
  let flag (b : Bool) := if b then "true" else "false"
  [("inputs", "[" ++ String.intercalate ", " (o.inputs.map Text.quote) ++ "]"),
    ("format", o.format.name.capitalize), ("color", o.coloring.name.capitalize), ("jobs", o.jobs.toNat.repr),
    ("skip_invalid", flag o.skipInvalid), ("tree", flag o.tree), ("verbose", flag o.verbose)]

/-- All options, as the log shows them. -/
def text (o : Options) : String :=
  "Cli \x7b " ++ String.intercalate ", " (o.fields.map fun (name, value) => name ++ ": " ++ value) ++ " \x7d"

end Options

end Pinpoint
