import Pinpoint.Json.Writer
import Pinpoint.Problem.Basic

/-!
# Problems and messages as JSON

The members stand in a fixed order. Absent parts of a message are written as null. A problem is written on one line, the
list of all messages in the pretty layout.
-/

namespace Pinpoint

open Json (Value)

def wordJson (n : UInt64) : Value := .number (.natural n)

def optionalJson (f : α → Value) : Option α → Value
  | none => .null
  | some a => f a

def SourceRange.toJson (r : SourceRange) : Value :=
  .object [("start_line", wordJson r.start.line), ("start_column", wordJson r.start.column),
    ("end_line", wordJson r.stop.line), ("end_column", wordJson r.stop.column)]

def Problem.toJson (p : Problem) : Value :=
  .object [("path", .text p.path), ("range", p.range.toJson), ("severity", .text p.severity.name),
    ("text", .text p.text)]

/-- The problem as one line of JSON. -/
def Problem.jsonLine (p : Problem) : String := p.toJson.compact

def Site.toJson (s : Site) : Value :=
  .object [("path", .text s.path), ("range", s.range.toJson), ("severity", .text s.severity.name),
    ("label", optionalJson .text s.label)]

def Node.toJson : Node → Value
  | ⟨site, isPrimary, invocation, definition⟩ =>
    .object [("source_info", site.toJson), ("is_primary", .bool isPrimary),
      ("def_site_msg", match invocation with | none => .null | some n => n.toJson),
      ("expansion_msg", match definition with | none => .null | some n => n.toJson)]

/-- Text and severity of a message as a problem without a place. -/
def Message.heading (m : Message) : Problem := ⟨SourcePath.internal, .placeholder, m.severity, m.text⟩

/-- A message that stands at a place of its own. -/
structure Headed where
  path : String
  range : SourceRange
  message : Message
  deriving DecidableEq, Repr, Inhabited

def Headed.heading (h : Headed) : Problem := ⟨h.path, h.range, h.message.severity, h.message.text⟩

def Headed.toJson (h : Headed) : Value :=
  .object [("source_info", h.heading.toJson), ("code", optionalJson .text h.message.code),
    ("notes", optionalJson (fun notes => .list (notes.map .text)) h.message.notes),
    ("spans", .list (h.message.spans.map Node.toJson))]

/-- The message at the place that its heading has. -/
def Message.headed (m : Message) : Headed := ⟨m.heading.path, m.heading.range, m⟩

def Message.toJson (m : Message) : Value := m.headed.toJson

/-- The trees of all messages. -/
def treesJson (messages : List Message) : Value := .list (messages.map Message.toJson)

end Pinpoint
