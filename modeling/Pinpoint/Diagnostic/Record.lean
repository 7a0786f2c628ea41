import Pinpoint.Diagnostic.OfJson

/-!
# Records of a diagnostic stream

A stream holds diagnostics, bare or in the envelopes of a build tool. An envelope is an object with a text as its
`reason`; one reason announces a diagnostic as the `message`, and every other record of the build tool is skipped.
-/

namespace Pinpoint

/-- What a value of a stream holds. -/
inductive Record where
  | skipped (reason : String)
  /-- A value that should be a diagnostic. -/
  | diagnostic (v : Json.Value)
  deriving Repr, Inhabited, BEq

namespace Record

/-- The reason of an envelope that holds a diagnostic. -/
def diagnosticReason : String := "compiler-message"

/-- The reason of an envelope. -/
def reason? (v : Json.Value) : Option String :=
  match v.get? "reason" with
  | some (.text reason) => some reason
  | _ => none

/-- Takes a value out of its envelope, if it has one. An envelope without a `message` is taken for the diagnostic. -/
def ofJson (v : Json.Value) : Record :=
  match reason? v with
  | none => .diagnostic v
  | some reason => if reason = diagnosticReason then .diagnostic ((v.get? "message").getD v) else .skipped reason

end Record

end Pinpoint
