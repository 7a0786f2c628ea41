import Pinpoint.Decimal.Word
import Pinpoint.Options.Basic

/-!
# Arguments

Reading a command line. An option or a run of inputs is taken down first and judged when the next known option comes or
the arguments end: only then are a missing value, a value that is none and an empty input noticed. The first thing that
is noticed ends the reading.
-/

namespace Pinpoint

/-- Why no run follows from the arguments. -/
inductive Refusal where
  /-- A value or an input is missing or empty, or the value is none of those that may be chosen. -/
  | invalidValue
  /-- The value is no number of 64 bits. -/
  | valueValidation
  | unknownArgument
  /-- A flag has a value. -/
  | tooManyValues
  /-- An option is given twice. -/
  | argumentConflict
  | displayHelp
  | displayVersion
  deriving DecidableEq, Repr, Inhabited

/-- Asking for help or the version is no error. -/
def Refusal.exitCode : Refusal → Nat
  | .displayHelp | .displayVersion => 0
  | _ => 2

namespace Arguments

/-! ## The options there are -/

/-- The options with a value. -/
inductive Setting where
  | format
  | coloring
  | jobs
  deriving DecidableEq, Repr

/-- The options without one. -/
inductive Flag where
  | skipInvalid
  | tree
  | verbose
  | help
  | version
  deriving DecidableEq, Repr

inductive Key where
  | setting (s : Setting)
  | flag (f : Flag)
  deriving DecidableEq, Repr

def long? : String → Option Key
  | "format" => some (.setting .format)
  | "color" => some (.setting .coloring)
  | "jobs" => some (.setting .jobs)
  | "skip-invalid" => some (.flag .skipInvalid)
  | "tree" => some (.flag .tree)
  | "verbose" => some (.flag .verbose)
  | "help" => some (.flag .help)
  | "version" => some (.flag .version)
  | _ => none

def short? : Char → Option Key
  | 'f' => some (.setting .format)
  | 'j' => some (.setting .jobs)
  | 'v' => some (.flag .verbose)
  | 'h' => some (.flag .help)
  | 'V' => some (.flag .version)
  | _ => none

/-! ## Values -/

def format? (word : String) : Option Format := [Format.plain, .json].find? (·.name = word)

def coloring? (word : String) : Option Coloring := [Coloring.auto, .always, .never].find? (·.name = word)

/-! ## What has been given -/

/-- What has been judged so far. -/
structure Given where
  inputs : List String := []
  format : Option Format := none
  coloring : Option Coloring := none
  jobs : Option UInt64 := none
  skipInvalid : Bool := false
  tree : Bool := false
  verbose : Bool := false
  deriving DecidableEq, Repr, Inhabited

namespace Given

/-- A setting with its value. -/
def set (g : Given) (s : Setting) (word : String) : Except Refusal Given :=
  match s with
  | .format =>
    if g.format.isSome then .error .argumentConflict
    else match format? word with
      | none => .error .invalidValue
      | some f => .ok { g with format := some f }
  | .coloring =>
    if g.coloring.isSome then .error .argumentConflict
    else match coloring? word with
      | none => .error .invalidValue
      | some c => .ok { g with coloring := some c }
  | .jobs =>
    if g.jobs.isSome then .error .argumentConflict
    else match Decimal.word? word with
      | none => .error .valueValidation
      | some n => .ok { g with jobs := some n }

def raise (g : Given) : Flag → Except Refusal Given
  | .skipInvalid => if g.skipInvalid then .error .argumentConflict else .ok { g with skipInvalid := true }
  | .tree => if g.tree then .error .argumentConflict else .ok { g with tree := true }
  | .verbose => if g.verbose then .error .argumentConflict else .ok { g with verbose := true }
  | .help => .error .displayHelp
  | .version => .error .displayVersion

/-- No input is empty. -/
def addInputs (g : Given) (names : List String) : Except Refusal Given :=
  if names.contains "" then .error .invalidValue else .ok { g with inputs := g.inputs ++ names }

/-- The options, with defaults for what was not given. -/
def options (g : Given) : Options :=
  let d : Options := {}
  { inputs := g.inputs
    format := g.format.getD d.format
    coloring := g.coloring.getD d.coloring
    jobs := g.jobs.getD d.jobs
    skipInvalid := g.skipInvalid
    tree := g.tree
    verbose := g.verbose }

end Given

/-- What has been taken down but not judged. -/
inductive Pending where
  | nothing
  | setting (s : Setting) (word : Option String)
  | inputs (names : List String)
  deriving DecidableEq, Repr, Inhabited

structure State where
  given : Given := {}
  pending : Pending := .nothing
  deriving DecidableEq, Repr, Inhabited

namespace State

/-! ## Reading -/

/-- Judges what is pending. -/
def settle (s : State) : Except Refusal Given :=
  match s.pending with
  | .nothing => .ok s.given
  | .setting _ none => .error .invalidValue
  | .setting key (some word) => s.given.set key word
  | .inputs names => s.given.addInputs names

/-- A setting, with its value if that is attached to it. -/
def setting (s : State) (key : Setting) (attached : Option String) : Except Refusal State := do
  let given ← s.settle
  match attached with
  | none => return ⟨given, .setting key none⟩
  | some word => return ⟨← given.set key word, .nothing⟩

def flag (s : State) (f : Flag) : Except Refusal State := do
  return ⟨← (← s.settle).raise f, .nothing⟩

/-- An option by its long name, perhaps with a value after an equals sign. -/
def long (s : State) (body : List Char) : Except Refusal State :=
  let name := body.takeWhile (· ≠ '=')
  let attached := match body.dropWhile (· ≠ '=') with
    | [] => none
    | _ :: word => some (String.ofList word)
  match long? (String.ofList name), attached with
  | none, _ => .error .unknownArgument
  | some (.setting key), attached => s.setting key attached
  | some (.flag f), none => s.flag f
  | some (.flag _), some _ => .error .tooManyValues

/-- Options by their letters. The letters after that of a setting are its value, an equals sign apart. -/
def short (s : State) : List Char → Except Refusal State
  | [] => .ok s
  | c :: rest =>
    match short? c with
    | none => .error .unknownArgument
    | some (.flag f) => do short (← s.flag f) rest
    | some (.setting key) =>
      s.setting key <|
        match rest with
        | [] => none
        | '=' :: word => some (String.ofList word)
        | word => some (String.ofList word)

/-- An input. -/
def input (s : State) (name : String) : Except Refusal State :=
  match s.pending with
  | .inputs names => .ok { s with pending := .inputs (names ++ [name]) }
  | _ => do return ⟨← s.settle, .inputs [name]⟩

/-- An argument that is no option: the value of the setting before it, or an input. -/
def word (s : State) (w : String) : Except Refusal State :=
  match s.pending with
  | .setting key none => .ok { s with pending := .setting key (some w) }
  | _ => s.input w

/-- The arguments one by one; after two dashes all are inputs. -/
def read (s : State) : List String → Except Refusal State
  | [] => .ok s
  | arg :: args =>
    match arg.toList with
    | ['-', '-'] => args.foldlM input s
    | '-' :: '-' :: body => do read (← s.long body) args
    | '-' :: c :: rest => do read (← s.short (c :: rest)) args
    | _ => do read (← s.word arg) args

end State

/-- The options that the arguments give. -/
def parse (args : List String) : Except Refusal Options := do
  return (← (← State.read {} args).settle).options

end Arguments

end Pinpoint
