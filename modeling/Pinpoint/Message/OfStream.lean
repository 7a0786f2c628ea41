import Pinpoint.Diagnostic.Record
import Pinpoint.Diagnostic.Repairs
import Pinpoint.Input.Delivery
import Pinpoint.Json.Stream
import Pinpoint.Message.OfDiagnostic

/-!
# Messages of a stream

A stream gives the messages of its diagnostics, in order, unless one of its records is at fault: then it gives none, and
a `ParseError` with the number of that record and the offset where the value before it ends. The records before it are
still in the log.
-/

namespace Pinpoint

/-! ## Errors -/

/-- What is wrong with a record. -/
inductive Flaw where
  /-- It is no JSON. -/
  | fault (f : Json.Fault)
  /-- It is no diagnostic. -/
  | mismatch (m : Mismatch)
  deriving Repr, Inhabited

/-- The three ways for a record to be at fault. -/
inductive Flaw.Category where
  /-- The text ends inside it. -/
  | early
  /-- It is no JSON, however the text goes on. -/
  | malformed
  /-- It is JSON, but no diagnostic. -/
  | mismatch
  deriving DecidableEq, Repr, Inhabited

namespace Flaw

def category : Flaw → Category
  | .fault f => if f.cause.isEarlyEnd then .early else .malformed
  | .mismatch _ => .mismatch

def text : Flaw → String
  | .fault f => f.text
  | .mismatch m => m.text

end Flaw

/-- Why a stream gives no messages. -/
inductive ParseError where
  /-- Record `record`, counted from one, is at fault; what is before it ends at byte `offset`, and space may follow. -/
  | malformed (record offset : Nat) (flaw : Flaw)
  | unread (f : ReadFailure)
  deriving Repr, Inhabited

namespace ParseError

/-- The number of the record at fault. -/
def record? : ParseError → Option Nat
  | .malformed record _ _ => some record
  | .unread _ => none

/-- The text of what lies behind the error. -/
def source : ParseError → String
  | .malformed _ _ flaw => flaw.text
  | .unread f => f.text

def text : ParseError → String
  | .malformed record offset flaw =>
    "malformed diagnostic record #" ++ record.repr ++ " at byte " ++ offset.repr ++ ": " ++ flaw.text
  | .unread f => "failed to read diagnostic stream: " ++ f.text

end ParseError

/-! ## Streams -/

namespace Message

/-- The messages of the records that follow the first `before` ones, with the number of all records. -/
def ofRecords (before : Nat) : Json.Stream → Logged (Except ParseError (List Message × Nat))
  | .finished _ => ⟨[], .ok ([], before)⟩
  | .broken start fault => ⟨[], .error (.malformed (before + 1) start (.fault fault))⟩
  | .value start v rest =>
    match Record.ofJson v with
    | .skipped reason => (ofRecords (before + 1) rest).prepend [.recordSkipped reason]
    | .diagnostic v =>
      match Diagnostic.ofJson v with
      | .error m => ⟨[], .error (.malformed (before + 1) start (.mismatch m))⟩
      | .ok d =>
        let later := ofRecords (before + 1) rest
        ⟨.recordRead (before + 1) d.level d.message :: d.repairs ++ later.events,
          later.result.map fun (messages, records) => (ofDiagnostic d :: messages, records)⟩

/-- The messages of a stream. -/
def ofStream (s : Json.Stream) : Logged (Except ParseError (List Message)) :=
  let read := ofRecords 0 s
  match read.result with
  | .error e => ⟨read.events, .error e⟩
  | .ok (messages, records) => ⟨read.events ++ [.streamRead messages.length records], .ok messages⟩

/-- The messages of a text. -/
def ofText (s : String) : Logged (Except ParseError (List Message)) := ofStream (.ofText s)

/-- The messages of a text that is delivered in bytes. -/
def ofDeliveries (ds : List Delivery) : Logged (Except ParseError (List Message)) :=
  match Delivery.text ds with
  | .error f => ⟨[], .error (.unread f)⟩
  | .ok s => ofText s

end Message

end Pinpoint
