import Pinpoint.Options.Basic
import Pinpoint.Input.Files
import Pinpoint.Message.OfStream

/-!
# Collecting inputs

The messages of several inputs, read one after the other. What an input gives depends on its source alone, and the
sources have nothing in common but the standard input: the first that reads it reads all of it.
-/

namespace Pinpoint

/-! ## One input -/

/-- Where the bytes of an input come from. -/
structure Source where
  name : String
  deliveries : Except OpenFailure (List Delivery)
  deriving Inhabited

/-- Why an input gives no messages. -/
inductive InputError where
  | unopened (name : String) (f : OpenFailure)
  | unparsed (name : String) (e : ParseError)
  /-- Whoever read it broke down. -/
  | lost (name : String)
  deriving Repr, Inhabited

namespace InputError

/-- What was being done. -/
def context : InputError → String
  | .unopened name _ => "failed to open " ++ name
  | .unparsed name _ =>
    "failed to parse diagnostics from " ++ if name = standardInput then "stdin" else name
  | .lost name => "worker reading " ++ name ++ " panicked"

/-- What was being done, and every reason behind it. -/
def chain (e : InputError) : List String :=
  e.context :: match e with
    | .unopened _ f => [f.text]
    | .unparsed _ e => [e.text, e.source]
    | .lost _ => []

def text (e : InputError) : String := String.intercalate ": " e.chain

end InputError

/-- The messages of an input, or why there are none. -/
structure Collected where
  name : String
  messages : Except InputError (List Message)
  deriving Inhabited

def Source.collect (s : Source) : Logged Collected :=
  match s.deliveries with
  | .error f => ⟨[], ⟨s.name, .error (.unopened s.name f)⟩⟩
  | .ok ds => (Message.ofDeliveries ds).map fun r => ⟨s.name, r.mapError (.unparsed s.name)⟩

/-! ## Several inputs -/

/-- What a run finds around it. -/
structure Surroundings where
  openName : String → Except OpenFailure Supply
  stdin : List Delivery

namespace Surroundings

/-- What an input of the given name is read from. -/
def supply (s : Surroundings) (name : String) : Except OpenFailure Supply :=
  if name = standardInput then .ok .stdin else s.openName name

/-- The source of an input, and what reading it leaves on the standard input, given what is on it. -/
def source (s : Surroundings) (stdin : List Delivery) (name : String) : Source × List Delivery :=
  match s.supply name with
  | .error f => (⟨name, .error f⟩, stdin)
  | .ok supply =>
    let (ds, left) := supply.take stdin
    (⟨name, .ok ds⟩, left)

/-- The sources of inputs that are read one after the other. -/
def sources (s : Surroundings) (stdin : List Delivery) : List String → List Source
  | [] => []
  | name :: names =>
    let (source, left) := s.source stdin name
    source :: s.sources left names

/-- The messages of all inputs, read one after the other. -/
def collect (s : Surroundings) (names : List String) : Logged (List Collected) :=
  let read := (s.sources s.stdin names).map Source.collect
  ⟨read.flatMap Logged.events ++ [.inputsCollected names.length], read.map Logged.result⟩

end Surroundings

/-- The surroundings with a tree of files. -/
def FileTree.surroundings (t : FileTree) (stdin : ByteArray) : Surroundings :=
  ⟨fun name => (t.openName name).map Entry.supply, [.bytes stdin]⟩

end Pinpoint
