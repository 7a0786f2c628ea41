import Pinpoint.Diagnostic.Basic
import Pinpoint.Diagnostic.Mismatch

/-!
# Diagnostics from JSON

Every shape is read from an object or from a list. The fields of an object are read in ascending order of their keys and
mandatory ones that are missing are noticed after that; the items of a list are read in the order of the fields. An
optional field may be missing or null. Keys that a shape does not know are passed over.
-/

namespace Pinpoint

open Json (Value)

namespace Member

/-! ## Single fields -/

def text : Value → Except Mismatch String
  | .text s => .ok s
  | v => .error (.wrongType v .text)

def flag : Value → Except Mismatch Bool
  | .bool b => .ok b
  | v => .error (.wrongType v .flag)

/-- A whole number from zero up. -/
def word : Value → Except Mismatch UInt64
  | .number (.natural n) => .ok n
  | .number (.negative n) => .error (.belowZero n)
  | v => .error (.wrongType v .word)

/-- Every item of a list. -/
def list (item : Value → Except Mismatch α) : Value → Except Mismatch (List α)
  | .list vs => vs.mapM item
  | v => .error (.wrongType v .list)

/-- A field that may be missing or null. -/
def optional (read : Value → Except Mismatch α) : Option Value → Except Mismatch (Option α)
  | none => .ok none
  | some v => if v.isNull then .ok none else some <$> read v

/-- A field that may be missing for now. -/
def given (read : Value → Except Mismatch α) : Option Value → Except Mismatch (Option α)
  | none => .ok none
  | some v => some <$> read v

/-- A mandatory field of an object, once read. -/
def require (name : String) : Option α → Except Mismatch α
  | none => .error (.missing name)
  | some a => .ok a

/-- A mandatory item of a list. -/
def item (shape : Shape) (read : Value → Except Mismatch α) (vs : List Value) (i : Nat) : Except Mismatch α :=
  match vs[i]? with
  | none => .error (.tooShort i shape)
  | some v => read v

/-- A list has no more items than there are fields. -/
def checkLength (shape : Shape) (vs : List Value) : Except Mismatch Unit :=
  if vs.length ≤ shape.size then .ok () else .error (.tooLong vs.length)

end Member

open Member

/-! ## Codes and children -/

/-- A code is a text, or an object whose `code` is a text; null is no code, and no value is refused. -/
def Code.ofJson : Option Value → Code
  | none => .absent
  | some .null => .absent
  | some (.text name) => .named name
  | some (.object members) =>
    match members.lookup "code" with
    | none | some .null => .absent
    | some (.text name) => .named name
    | some _ => .odd (.object members)
  | some v => .odd v

/-- A child is read even if its message or level is missing. -/
def Child.ofJson : Value → Except Mismatch Child
  | .object members => do
    let level ← optional text (members.lookup "level")
    let message ← optional text (members.lookup "message")
    return ⟨message, level⟩
  | .list vs => do
    let message ← optional text vs[0]?
    let level ← optional text vs[1]?
    checkLength .child vs
    return ⟨message, level⟩
  | v => .error (.wrongType v (.shape .child))

/-! ## Spans -/

/-- The spans of the macro that made a span. -/
structure Expansion where
  invocation : Option Span
  definition : Option Span
  deriving Repr, Inhabited, BEq

mutual

def Span.ofJson : Value → Except Mismatch Span
  | .object members => do
    let stopColumn ← given word (members.lookup "column_end")
    let startColumn ← given word (members.lookup "column_start")
    let expansion ← Expansion.ofMembers members
    let fileName ← optional text (members.lookup "file_name")
    let isPrimary ← optional flag (members.lookup "is_primary")
    let label ← optional text (members.lookup "label")
    let stopLine ← given word (members.lookup "line_end")
    let startLine ← given word (members.lookup "line_start")
    let startLine ← require "line_start" startLine
    let stopLine ← require "line_end" stopLine
    let startColumn ← require "column_start" startColumn
    let stopColumn ← require "column_end" stopColumn
    return ⟨fileName, ⟨startLine, startColumn⟩, ⟨stopLine, stopColumn⟩, isPrimary.getD true, label,
      expansion.invocation, expansion.definition⟩
  | .list vs => do
    let fileName ← optional text vs[0]?
    let startLine ← item .span word vs 1
    let stopLine ← item .span word vs 2
    let startColumn ← item .span word vs 3
    let stopColumn ← item .span word vs 4
    let isPrimary ← optional flag vs[5]?
    let label ← optional text vs[6]?
    let expansion ← Expansion.ofItem 7 vs
    checkLength .span vs
    return ⟨fileName, ⟨startLine, startColumn⟩, ⟨stopLine, stopColumn⟩, isPrimary.getD true, label,
      expansion.invocation, expansion.definition⟩
  | v => .error (.wrongType v (.shape .span))
termination_by structural v => v

def Expansion.ofJson : Value → Except Mismatch Expansion
  | .object members => do
    let definition ← Span.ofMembers "def_site_span" members
    let invocation ← Span.ofMembers "span" members
    return ⟨invocation, definition⟩
  | .list vs => do
    let invocation ← Span.ofItem 0 vs
    let definition ← Span.ofItem 1 vs
    checkLength .expansion vs
    return ⟨invocation, definition⟩
  | v => .error (.wrongType v (.shape .expansion))
termination_by structural v => v

/-- The optional member `expansion`. -/
def Expansion.ofMembers : List (String × Value) → Except Mismatch Expansion
  | [] => .ok ⟨none, none⟩
  | (k, v) :: members =>
    if k = "expansion" then if v.isNull then .ok ⟨none, none⟩ else Expansion.ofJson v
    else Expansion.ofMembers members
termination_by structural members => members

/-- The optional item `i`, an expansion. -/
def Expansion.ofItem (i : Nat) : List Value → Except Mismatch Expansion
  | [] => .ok ⟨none, none⟩
  | v :: vs =>
    match i with
    | 0 => if v.isNull then .ok ⟨none, none⟩ else Expansion.ofJson v
    | i + 1 => Expansion.ofItem i vs
termination_by structural vs => vs

/-- An optional member, a span. -/
def Span.ofMembers (key : String) : List (String × Value) → Except Mismatch (Option Span)
  | [] => .ok none
  | (k, v) :: members =>
    if k = key then if v.isNull then .ok none else some <$> Span.ofJson v else Span.ofMembers key members
termination_by structural members => members

/-- The optional item `i`, a span. -/
def Span.ofItem (i : Nat) : List Value → Except Mismatch (Option Span)
  | [] => .ok none
  | v :: vs =>
    match i with
    | 0 => if v.isNull then .ok none else some <$> Span.ofJson v
    | i + 1 => Span.ofItem i vs
termination_by structural vs => vs

end

/-! ## Diagnostics -/

def Diagnostic.ofJson : Value → Except Mismatch Diagnostic
  | .object members => do
    let children ← optional (list Child.ofJson) (members.lookup "children")
    let code := Code.ofJson (members.lookup "code")
    let level ← given text (members.lookup "level")
    let message ← given text (members.lookup "message")
    let spans ← optional (list Span.ofJson) (members.lookup "spans")
    let message ← require "message" message
    let level ← require "level" level
    return ⟨message, code, level, spans.getD [], children.getD []⟩
  | .list vs => do
    let message ← item .diagnostic text vs 0
    let code := Code.ofJson vs[1]?
    let level ← item .diagnostic text vs 2
    let spans ← optional (list Span.ofJson) vs[3]?
    let children ← optional (list Child.ofJson) vs[4]?
    checkLength .diagnostic vs
    return ⟨message, code, level, spans.getD [], children.getD []⟩
  | v => .error (.wrongType v (.shape .diagnostic))

end Pinpoint
