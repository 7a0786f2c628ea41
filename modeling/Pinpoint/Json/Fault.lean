/-!
# Faults in a JSON text

Why a text is no JSON, as a cause and the place where it shows. Some causes say that the text ends too early, the others
that it goes on in a way that no value does.
-/

namespace Pinpoint.Json

/-- Why a text is no JSON value. -/
inductive Cause where
  /-- The text ends inside a value of this kind. -/
  | endInValue
  | endInList
  | endInObject
  | endInText
  | expectedValue
  | expectedWord
  | expectedListEnd
  | expectedObjectEnd
  | expectedColon
  | keyNotText
  | trailingComma
  /-- Something clings to a number or word at the top of the stream. -/
  | trailingCharacters
  | controlCharacter
  | invalidEscape
  /-- A unit of a surrogate pair stands where it cannot. -/
  | loneSurrogate
  /-- The second unit of a surrogate pair is missing. -/
  | unfinishedPair
  | invalidNumber
  | numberTooLarge
  | nestedTooDeep
  deriving DecidableEq, Repr

namespace Cause

/-- More text might have mended it. -/
def isEarlyEnd : Cause → Bool
  | .endInValue | .endInList | .endInObject | .endInText => true
  | _ => false

def text : Cause → String
  | .endInValue => "EOF while parsing a value"
  | .endInList => "EOF while parsing a list"
  | .endInObject => "EOF while parsing an object"
  | .endInText => "EOF while parsing a string"
  | .expectedValue => "expected value"
  | .expectedWord => "expected ident"
  | .expectedListEnd => "expected `,` or `]`"
  | .expectedObjectEnd => "expected `,` or `\x7d`"
  | .expectedColon => "expected `:`"
  | .keyNotText => "key must be a string"
  | .trailingComma => "trailing comma"
  | .trailingCharacters => "trailing characters"
  | .controlCharacter => "control character (\\u0000-\\u001F) found while parsing a string"
  | .invalidEscape => "invalid escape"
  | .loneSurrogate => "lone leading surrogate in hex escape"
  | .unfinishedPair => "unexpected end of hex escape"
  | .invalidNumber => "invalid number"
  | .numberTooLarge => "number out of range"
  | .nestedTooDeep => "recursion limit exceeded"

end Cause

/-- A cause and where it lies: `ahead` bytes past the characters read before it. -/
structure Trouble where
  cause : Cause
  ahead : Nat
  deriving DecidableEq, Repr

/-- The character at hand is at fault. -/
def Trouble.here (cause : Cause) : Trouble := ⟨cause, 1⟩

/-! ## Places -/

/-- How far a text has been read, in bytes: in all, in lines ended, and since the last line ended. -/
structure Place where
  offset : Nat
  line : Nat
  column : Nat
  deriving DecidableEq, Repr

namespace Place

def origin : Place := ⟨0, 1, 0⟩

/-- The place after one more character. -/
def after (p : Place) (c : Char) : Place :=
  if c = '\n' then ⟨p.offset + 1, p.line + 1, 0⟩ else ⟨p.offset + c.utf8Size, p.line, p.column + c.utf8Size⟩

/-- The place `bytes` bytes into the character `c`. -/
def into (p : Place) (c : Char) (bytes : Nat) : Place :=
  if c = '\n' ∧ bytes ≠ 0 then p.after c else ⟨p.offset + bytes, p.line, p.column + bytes⟩

end Place

/-- A cause and the line and column that it shows at. -/
structure Fault where
  cause : Cause
  line : Nat
  column : Nat
  deriving DecidableEq, Repr

def Fault.text (f : Fault) : String :=
  f.cause.text ++ " at line " ++ f.line.repr ++ " column " ++ f.column.repr

/-- The fault of a trouble with the character `c` that follows `p`. -/
def Trouble.at (t : Trouble) (p : Place) (c : Char) : Fault :=
  let q := p.into c t.ahead
  ⟨t.cause, q.line, q.column⟩

/-- A fault that shows at the end of the text. -/
def Cause.atEnd (cause : Cause) (p : Place) : Fault := ⟨cause, p.line, p.column⟩

end Pinpoint.Json
