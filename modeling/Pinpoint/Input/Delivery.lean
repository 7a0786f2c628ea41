/-!
# Deliveries

Bytes come in pieces. `gather` takes piece after piece until no more comes; an interruption is passed over and any other
failure ends the reading. What was gathered must then be text as a whole, so the places where it was cut do not matter.
-/

namespace Pinpoint

/-- The kinds of failures of a read. -/
inductive FailureKind where
  | brokenPipe
  | timedOut
  | invalidData
  | isDirectory
  | other
  deriving DecidableEq, Repr, Inhabited

/-- Why a read failed. -/
structure ReadFailure where
  kind : FailureKind
  text : String
  deriving DecidableEq, Repr, Inhabited

namespace ReadFailure

/-- The bytes are no text. -/
def notText : ReadFailure := ⟨.invalidData, "stream did not contain valid UTF-8"⟩

/-- A directory has no bytes. -/
def isDirectory : ReadFailure := ⟨.isDirectory, "Is a directory (os error 21)"⟩

end ReadFailure

/-- Bytes are compared as the run compares them, also where a library brings another comparison. -/
instance (priority := high) decideBytes : DecidableEq ByteArray := ByteArray.decEq

/-- What one read brings. -/
inductive Delivery where
  | bytes (b : ByteArray)
  /-- Nothing yet. -/
  | interrupted
  | failed (f : ReadFailure)
  deriving DecidableEq, Inhabited

namespace Delivery

/-- All bytes, or the first failure that is no interruption. -/
def gather : List Delivery → Except ReadFailure ByteArray
  | [] => .ok .empty
  | .bytes b :: ds => (b ++ ·) <$> gather ds
  | .interrupted :: ds => gather ds
  | .failed f :: _ => .error f

/-- The text that the bytes are in UTF-8. -/
def decode (b : ByteArray) : Except ReadFailure String :=
  match String.fromUTF8? b with
  | some s => .ok s
  | none => .error .notText

/-- The text of all bytes. -/
def text (ds : List Delivery) : Except ReadFailure String := gather ds >>= decode

end Delivery

/-! ## Supplies -/

/-- Where deliveries come from. -/
inductive Supply where
  | own (ds : List Delivery)
  /-- What nobody has read yet of the standard input. -/
  | stdin
  deriving DecidableEq, Inhabited

/-- What a supply delivers, and what that leaves on the standard input, given what is on it. -/
def Supply.take (stdin : List Delivery) : Supply → List Delivery × List Delivery
  | .own ds => (ds, stdin)
  | .stdin => (stdin, [])

end Pinpoint
