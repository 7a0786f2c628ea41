import Pinpoint.Decimal.Shortest
import Pinpoint.Decimal.Word
import Pinpoint.Diagnostic.Basic
import Pinpoint.Diagnostic.Mismatch
import Pinpoint.Diagnostic.OfJson
import Pinpoint.Diagnostic.Record
import Pinpoint.Diagnostic.Repairs
import Pinpoint.Input.Collection
import Pinpoint.Input.Delivery
import Pinpoint.Input.Files
import Pinpoint.Input.Pool
import Pinpoint.Json.Fault
import Pinpoint.Json.Machine
import Pinpoint.Json.Numeral
import Pinpoint.Json.Stream
import Pinpoint.Json.Value
import Pinpoint.Json.Writer
import Pinpoint.Log.Directive
import Pinpoint.Log.Event
import Pinpoint.Log.FieldValue
import Pinpoint.Log.Filter
import Pinpoint.Main
import Pinpoint.Message.Basic
import Pinpoint.Message.OfDiagnostic
import Pinpoint.Message.OfStream
import Pinpoint.Options.Arguments
import Pinpoint.Options.Basic
import Pinpoint.Pattern.Atom
import Pinpoint.Pattern.CharSet
import Pinpoint.Pattern.Expression
import Pinpoint.Pattern.Flags
import Pinpoint.Pattern.Nesting
import Pinpoint.Problem.Basic
import Pinpoint.Problem.Json
import Pinpoint.Problem.Plain
import Pinpoint.Run
import Pinpoint.Severity.Basic
import Pinpoint.Severity.Tally
import Pinpoint.Source.Path
import Pinpoint.Source.Range
import Pinpoint.Text.Alphabetic
import Pinpoint.Text.Alphanumeric
import Pinpoint.Text.Blank
import Pinpoint.Text.Hexadecimal
import Pinpoint.Text.Hidden
import Pinpoint.Text.Inert
import Pinpoint.Text.Quoted
import Pinpoint.Text.Ranges
import Pinpoint.Proofs.Diagnostic.Fields
import Pinpoint.Proofs.Diagnostic.Macros
import Pinpoint.Proofs.Diagnostic.Parts
import Pinpoint.Proofs.Diagnostic.Schema
import Pinpoint.Proofs.Input.Collecting
import Pinpoint.Proofs.Input.Moves
import Pinpoint.Proofs.Input.Schedules
import Pinpoint.Proofs.Input.Slots
import Pinpoint.Proofs.Input.Sources
import Pinpoint.Proofs.Json.Grammar
import Pinpoint.Proofs.Json.Naturals
import Pinpoint.Proofs.Json.Recognition
import Pinpoint.Proofs.Json.Reconstruction
import Pinpoint.Proofs.Json.Runs
import Pinpoint.Proofs.Json.Streams
import Pinpoint.Proofs.Message.Acceptance
import Pinpoint.Proofs.Message.Concatenation
import Pinpoint.Proofs.Message.Records
import Pinpoint.Proofs.Message.Tree
import Pinpoint.Proofs.Text.Bytes
import Pinpoint.Proofs.Message.Mirror
import Pinpoint.Proofs.Message.Envelopes
import Pinpoint.Proofs.Json.Tree
import Pinpoint.Proofs.Message.Deliveries
import Pinpoint.Proofs.Message.Likeness
import Pinpoint.Proofs.Message.Drift
import Pinpoint.Proofs.Problem.Flattening
import Pinpoint.Proofs.Run.Blocks
import Pinpoint.Proofs.Run.Independence
import Pinpoint.Proofs.Run.Reports
import Pinpoint.Proofs.Json.Nesting
import Pinpoint.Proofs.Json.Writing
import Pinpoint.Proofs.Message.Depth
import Pinpoint.Proofs.Input.Origins
import Pinpoint.Proofs.Problem.Visibility
import Pinpoint.Proofs.Problem.Lines
import Pinpoint.Proofs.Message.Dumps
import Pinpoint.Proofs.Run.Tallies
import Pinpoint.Proofs.Run.Summaries
import Pinpoint.Proofs.Problem.Continuations
import Pinpoint.Proofs.Run.Formats
import Pinpoint.Proofs.Json.Overflow
import Pinpoint.Proofs.Message.Chains
import Pinpoint.Proofs.Message.Starts
import Pinpoint.Proofs.Message.Beginnings
import Pinpoint.Proofs.Message.Outlines
import Pinpoint.Proofs.Message.Codes
import Pinpoint.Proofs.Message.Bounds
import Pinpoint.Proofs.Source.Ranges
import Pinpoint.Proofs.Severity.Levels
import Pinpoint.Proofs.Message.Journal
import Pinpoint.Proofs.Message.Repairs
import Pinpoint.Proofs.Decimal.Words
import Pinpoint.Proofs.Options.CommandLines
import Pinpoint.Proofs.Json.Reader
import Pinpoint.Proofs.Message.Turns
