import Pinpoint.Decimal.Word
import Pinpoint.Log.Event
import Pinpoint.Log.FieldValue
import Pinpoint.Text.Alphanumeric
import Pinpoint.Text.Blank

/-!
# Log directives

One directive of a log filter: `target[span{field=value}]=level`, where every part may be missing. The target, the span
and the field say which events the directive is about, the level which of these pass. A single word is a level if it is
one, and otherwise a target of which every event passes.

Blanks around a directive are skipped where its parts are looked for, but the places of the parts are counted from the
first character that is not blank and then cut out of the whole text, as bytes: so a level may keep a blank at its end,
and is none then.
-/

namespace Pinpoint

/-! ## Levels -/

/-- The events of at least this importance, or none at all. -/
structure Verbosity where
  least : Option Importance
  deriving DecidableEq, Repr, Inhabited

namespace Verbosity

def admits (v : Verbosity) (i : Importance) : Bool :=
  match v.least with
  | none => false
  | some least => i.rank ≤ least.rank

def off : Verbosity := ⟨none⟩

/-- Every event. -/
def full : Verbosity := ⟨some .trace⟩

/-- A level by its name, with ASCII letters of either case, or by its number. -/
def ofText? (text : String) : Option Verbosity :=
  match Decimal.word? text with
  | some 0 => some off
  | some 1 => some ⟨some .error⟩
  | some 2 => some ⟨some .warn⟩
  | some 3 => some ⟨some .info⟩
  | some 4 => some ⟨some .debug⟩
  | some 5 => some full
  | _ =>
    match String.ofList (text.toList.map Char.toLower) with
    | "off" => some off
    | "error" => some ⟨some .error⟩
    | "warn" => some ⟨some .warn⟩
    | "info" => some ⟨some .info⟩
    | "debug" => some ⟨some .debug⟩
    | "trace" => some full
    | _ => none

end Verbosity

/-! ## Directives -/

/-- A field that must be there, with a value or with any. -/
structure FieldDemand where
  name : String
  value : Option String
  deriving DecidableEq, Repr, Inhabited

structure Directive where
  target : Option String := none
  span : Option String := none
  field : Option FieldDemand := none
  verbosity : Verbosity := .full
  deriving DecidableEq, Repr, Inhabited

/-! ## Reading a directive -/

/-- What follows so many bytes; nothing if they end inside a character. -/
def dropBytes? : Nat → List Char → Option (List Char)
  | 0, cs => some cs
  | _ + 1, [] => none
  | n + 1, c :: cs => if c.utf8Size ≤ n + 1 then dropBytes? (n + 1 - c.utf8Size) cs else none

/-- The first so many bytes; nothing if they end inside a character. -/
def takeBytes? : Nat → List Char → Option (List Char)
  | 0, _ => some []
  | _ + 1, [] => none
  | n + 1, c :: cs => if c.utf8Size ≤ n + 1 then (takeBytes? (n + 1 - c.utf8Size) cs).map (c :: ·) else none

/-- The text from one place up to another. -/
def cut? (cs : List Char) (start stop : Nat) : Option String :=
  ((dropBytes? start cs).bind (takeBytes? (stop - start))).map String.ofList

/-- The first of the given characters, its place, and what follows it. -/
def seek (stops : List Char) : Nat → List Char → Option (Char × Nat × List Char)
  | _, [] => none
  | place, c :: cs => if stops.contains c then some (c, place, cs) else seek stops (place + c.utf8Size) cs

namespace FieldDemand

/-- A field by its name, perhaps with a value after an equals sign; what follows a second one is dropped. -/
def ofText? (text : String) : Option FieldDemand :=
  match text.splitOn "=" with
  | name :: value :: _ => if isFieldValue value then some ⟨name, some value⟩ else none
  | _ => if text = "" then none else some ⟨text, none⟩

end FieldDemand

namespace Directive

/-- The level after an equals sign at the end of a directive; without one, every event passes. -/
def withLevel (d : Directive) (cs : List Char) (place : Nat) : Option Directive :=
  match (dropBytes? place cs).map String.ofList with
  | none => none
  | some "" => some d
  | some text => (Verbosity.ofText? text).map fun v => { d with verbosity := v }

/-- The part behind the brackets, given what is left to read. -/
def afterBrackets (d : Directive) (cs : List Char) (place : Nat) : List Char → Option Directive
  | [] => some d
  | '=' :: _ => d.withLevel cs (place + 1)
  | _ => none

/-- The part from inside the brackets on. -/
def insideBrackets (target : Option String) (cs : List Char) (place : Nat) (rest : List Char) : Option Directive := do
  match ← seek [']', '\x7b'] place rest with
  | (']', stop, rest) =>
    let span ← cut? cs place stop
    afterBrackets { target, span := some span } cs (stop + 1) rest
  | (_, stop, rest) =>
    let span ← cut? cs place stop
    let (_, close, rest) ← seek ['\x7d'] (stop + 1) rest
    let field ← FieldDemand.ofText? (← cut? cs (stop + 1) close)
    match rest with
    | ']' :: rest =>
      afterBrackets { target, span := if span = "" then none else some span, field := some field } cs (close + 2) rest
    | _ => none

/-- A character that a target may start with. -/
def startsTarget (c : Char) : Bool := c = '-' || c = ':' || c = '_' || Text.isAlphanumeric c

def ofText? (text : String) : Option Directive :=
  let cs := text.toList
  match Text.trim cs with
  | [] => none
  | '[' :: rest => insideBrackets none cs 1 rest
  | c :: rest =>
    if startsTarget c then
      match seek ['=', '['] c.utf8Size rest with
      | none =>
        match Verbosity.ofText? text with
        | some v => some { verbosity := v }
        | none => some { target := some text }
      | some ('=', place, _) => do withLevel { target := some (← cut? cs 0 place) } cs (place + 1)
      | some (_, place, rest) => do insideBrackets (some (← cut? cs 0 place)) cs (place + 1) rest
    else none

/-! ## What a directive is about -/

/-- The directive holds wherever an event arises, as far as its span and the value of its field go. -/
def isUnconditional (d : Directive) : Bool := d.span.isNone && d.field.all (·.value.isNone)

/-- The directive is about the event: its target begins the event's, and its field is the only one of an event. -/
def concerns (d : Directive) (e : Event) : Bool :=
  (d.target.all fun t => t.toList.isPrefixOf e.target.toList) && d.field.all (·.name = Event.field)

/-- At most as specific: with a shorter target, or with one of the same length and a field only if the other has one. -/
def isWithin (d d' : Directive) : Bool :=
  let length (d : Directive) := (d.target.map fun t => t.utf8ByteSize + 1).getD 0
  length d < length d' || length d = length d' && (d.field.isNone || d'.field.isSome)

end Directive

end Pinpoint
