import Pinpoint.Options.Arguments
import Pinpoint.Run

/-!
# The command line

Reads the inputs that the arguments name, makes a run of what was read and lets out what the run lets out.
-/

namespace Pinpoint.Main

/-- What is shown instead of a run. -/
def refusalText : Refusal → String
  | .invalidValue => "error: a value is missing, empty or not one of those that may be chosen"
  | .valueValidation => "error: a value is no number"
  | .unknownArgument => "error: unknown argument"
  | .tooManyValues => "error: a flag takes no value"
  | .argumentConflict => "error: an option is given twice"
  | .displayHelp =>
    "Turns JSON diagnostics into located problem messages.\n\n" ++
    "  [INPUTS]...              files of diagnostics; - or none reads standard input\n" ++
    "  -f, --format FORMAT      plain or json\n" ++
    "      --color WHEN         auto, always or never\n" ++
    "  -j, --jobs JOBS          how many inputs are read at once\n" ++
    "      --skip-invalid       inputs that cannot be read do not fail the run\n" ++
    "      --tree               print the message trees\n" ++
    "  -v, --verbose            log more\n"
  | .displayVersion => "0.1.0"

/-- The text of a failure of the operating system. -/
def systemText : IO.Error → String
  | .noFileOrDirectory _ code details | .permissionDenied _ code details | .inappropriateType _ code details
  | .invalidArgument _ code details | .resourceExhausted _ code details | .noSuchThing _ code details
  | .alreadyExists _ code details | .otherError code details | .resourceBusy code details
  | .hardwareFault code details => details ++ " (os error " ++ code.toNat.repr ++ ")"
  | e => toString e

/-- Opens a file and reads it to its end. -/
def load (name : String) : IO (Except OpenFailure Supply) := do
  match ← (IO.FS.Handle.mk name .read).toBaseIO with
  | .error e => return .error (.other (systemText e))
  | .ok h =>
    match ← h.readBinToEnd.toBaseIO with
    | .ok b => return .ok (.own [.bytes b])
    | .error e => return .ok (.own [.failed ⟨.other, systemText e⟩])

/-- Loads files, some of them at a time. -/
partial def loadAll (jobs : Nat) (names : List (Indexed String)) :
    IO (List (Indexed (String × Except OpenFailure Supply))) := do
  if names.isEmpty then return []
  let tasks ← (names.take (max jobs 1)).mapM fun a => return (a, ← (load a.item).asTask)
  let loaded ← tasks.mapM fun (a, task) => return ⟨a.index, a.item, ← IO.ofExcept task.get⟩
  return loaded ++ (← loadAll jobs (names.drop (max jobs 1)))

/-- Reads a stream to its end. -/
partial def readToEnd (s : IO.FS.Stream) (done : ByteArray) : IO ByteArray := do
  let b ← s.read 65536
  if b.isEmpty then return done else readToEnd s (done ++ b)

/-- The surroundings of a run, as far as the run looks at them. -/
def surroundings (o : Options) : IO Surroundings := do
  let names := o.inputNames
  let fileNames := names.filter (· ≠ standardInput)
  let files := (slotted fileNames.length (← loadAll o.jobs.toNat (indexed fileNames))).filterMap id
  let stdin ← if names.contains standardInput then readToEnd (← IO.getStdin) .empty else pure .empty
  return ⟨fun name => (files.lookup name).getD (.error .notFound), [.bytes stdin]⟩

/-- Lets out one emission. -/
def emit : Emission → IO Unit
  | .output s => do (← IO.getStdout).putStr s
  | .notice s => do (← IO.getStderr).putStr s
  | .event e => IO.eprintln (e.importance.name ++ " " ++ e.target ++ ": " ++ e.shown)

end Pinpoint.Main

open Pinpoint in
def main (args : List String) : IO UInt32 := do
  match Arguments.parse args with
  | .error r =>
    if r.exitCode = 0 then IO.println (Main.refusalText r) else IO.eprintln (Main.refusalText r)
    return r.exitCode.toUInt32
  | .ok o =>
    let filter := LogFilter.ofRun o.verbose (← IO.getEnv "RUST_LOG")
    let report := (run o (← Main.surroundings o) (← (← IO.getStdout).isTty)).filtered filter
    report.emissions.forM Main.emit
    return report.exitCode.toUInt32
