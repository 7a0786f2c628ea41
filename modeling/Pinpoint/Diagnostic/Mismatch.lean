import Pinpoint.Json.Writer
import Pinpoint.Text.Quoted

/-!
# Why a value is no diagnostic

A value has a shape: an object with fields of given types, or a list of their values in order. A `Mismatch` says what is
wrong with the first part of a value that does not fit.
-/

namespace Pinpoint

/-- The shapes of which diagnostics are made. -/
inductive Shape where
  | diagnostic
  | span
  | expansion
  | child
  deriving DecidableEq, Repr

namespace Shape

/-- The name of a shape in messages. -/
def name : Shape → String
  | .diagnostic => "struct RawDiagnostic"
  | .span => "struct RawSpan"
  | .expansion => "struct RawExpansion"
  | .child => "struct RawChild"

/-- How many fields a shape has. -/
def size : Shape → Nat
  | .diagnostic => 5
  | .span => 8
  | .expansion => 2
  | .child => 2

end Shape

/-- What a part of a value should be. -/
inductive Wanted where
  | text
  | flag
  | word
  | list
  | shape (s : Shape)
  deriving DecidableEq, Repr

def Wanted.name : Wanted → String
  | .text => "a string"
  | .flag => "a boolean"
  | .word => "usize"
  | .list => "a sequence"
  | .shape s => s.name

/-- What is wrong with a value. -/
inductive Mismatch where
  | wrongType (found : Json.Value) (wanted : Wanted)
  /-- A whole number below zero where a 64-bit word should be. -/
  | belowZero (found : Int64)
  | missing (field : String)
  /-- A list of `size` items that lacks a mandatory one. -/
  | tooShort (size : Nat) (shape : Shape)
  /-- A list of `size` items, more than there are fields. -/
  | tooLong (size : Nat)
  deriving Repr, Inhabited, BEq

/-- The kind of a value, with the value itself if it is small. -/
def Json.Value.describe : Json.Value → String
  | .null => "null"
  | .bool true => "boolean `true`"
  | .bool false => "boolean `false`"
  | .number (.binary x) => "floating point `" ++ String.ofList (Decimal.text x) ++ "`"
  | .number n => "integer `" ++ String.ofList n.write ++ "`"
  | .text s => "string " ++ Text.quote s
  | .list _ => "sequence"
  | .object _ => "map"

def Mismatch.text : Mismatch → String
  | .wrongType found wanted => "invalid type: " ++ found.describe ++ ", expected " ++ wanted.name
  | .belowZero n =>
    "invalid value: " ++ (Json.Value.number (.negative n)).describe ++ ", expected " ++ Wanted.word.name
  | .missing field => "missing field `" ++ field ++ "`"
  | .tooShort size shape =>
    "invalid length " ++ size.repr ++ ", expected " ++ shape.name ++ " with " ++ shape.size.repr ++ " elements"
  | .tooLong size => "invalid length " ++ size.repr ++ ", expected fewer elements in array"

end Pinpoint
