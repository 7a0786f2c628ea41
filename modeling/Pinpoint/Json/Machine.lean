import Pinpoint.Json.Numeral
import Pinpoint.Text.Hexadecimal

/-!
# The reading machine

JSON is read one character at a time by a machine with a stack: the stack holds the containers that wait for the value
being read, and the mode says what is being read. `Machine.feed` is one step. A value that does not lie in a container
is handed out as soon as it is certain to have ended: with its last character, or, for a number or a word, with the
delimiter after it.
-/

namespace Pinpoint.Json

/-- The deepest nesting of containers that is read. -/
def maxNesting : Nat := 127

/-! ## States -/

/-- A container that waits for a value of its own. The items of a list stand last first. -/
inductive Frame where
  | list (items : List Value)
  | object (members : List (String × Value)) (key : String)
  deriving Repr, Inhabited

/-- How far the innermost container has been read. -/
inductive Filling where
  /-- Nothing but its opening bracket. -/
  | opened
  /-- A value. -/
  | filled
  /-- A comma. -/
  | comma
  deriving DecidableEq, Repr

/-- What a text is read for. -/
inductive Role where
  | key (members : List (String × Value))
  | value
  deriving Repr, Inhabited

/-- How far an escape in a text has been read. -/
inductive Escape where
  /-- No escape is being read. -/
  | none
  /-- The backslash. -/
  | backslash
  /-- Some hexadecimal digits of a unit, and how many bytes were taken for them; the unit is missing if one of them was
  no digit. `high` is the unit of the pair that this one ends. -/
  | unit (high : Option Nat) (code : Option Nat) (bytes : Nat)
  /-- The first unit of a pair. -/
  | pair (high : Nat)
  /-- The first unit of a pair and a backslash. -/
  | pairBackslash (high : Nat)
  deriving DecidableEq, Repr

/-- What is being read. -/
inductive Mode where
  /-- The space between the values of the stream. -/
  | between
  /-- The start of a value. -/
  | start
  | list (items : List Value) (filling : Filling)
  | object (members : List (String × Value)) (filling : Filling)
  /-- The colon after a key. -/
  | colon (members : List (String × Value)) (key : String)
  /-- A text, its characters last first. -/
  | text (role : Role) (done : List Char) (escape : Escape)
  | number (n : Numeral)
  /-- The letters of a word that are still to come. -/
  | word (left : List Char) (v : Value)
  /-- The end of a value of the stream. -/
  | ended (v : Value)
  deriving Repr, Inhabited

structure Machine where
  stack : List Frame
  mode : Mode
  deriving Repr, Inhabited

/-- What a character does to a machine. -/
inductive Step where
  | next (m : Machine)
  /-- The character ends a value of the stream. -/
  | value (v : Value)
  | fail (t : Trouble)
  deriving Repr, Inhabited

namespace Machine

/-- The machine between two values of the stream. -/
def idle : Machine := ⟨[], .between⟩

/-! ## Characters -/

def isSpace (c : Char) : Bool := c = ' ' ∨ c = '\n' ∨ c = '\t' ∨ c = '\r'

/-- A character that may follow a number or word of the stream. -/
def isDelimiter (c : Char) : Bool :=
  isSpace c ∨ c = '"' ∨ c = '[' ∨ c = ']' ∨ c = '{' ∨ c = '}' ∨ c = ',' ∨ c = ':'

/-- The character that a letter after a backslash stands for. -/
def escaped? : Char → Option Char
  | '"' => some '"'
  | '\\' => some '\\'
  | '/' => some '/'
  | 'b' => some '\x08'
  | 'f' => some '\x0c'
  | 'n' => some '\n'
  | 'r' => some '\r'
  | 't' => some '\t'
  | _ => none

def isHigh (unit : Nat) : Bool := 0xD800 ≤ unit ∧ unit ≤ 0xDBFF

def isLow (unit : Nat) : Bool := 0xDC00 ≤ unit ∧ unit ≤ 0xDFFF

/-- The character of a surrogate pair. -/
def ofPair (high low : Nat) : Char := Char.ofNat (0x10000 + (high - 0xD800) * 0x400 + (low - 0xDC00))

/-! ## Values -/

/-- The machine once the container `frame` has got a value. -/
def fill (frame : Frame) (stack : List Frame) (v : Value) : Machine :=
  match frame with
  | .list items => ⟨stack, .list (v :: items) .filled⟩
  | .object members key => ⟨stack, .object (Value.insert key v members) .filled⟩

/-- A value ends with the character at hand. -/
def close (stack : List Frame) (v : Value) : Step :=
  match stack with
  | [] => .value v
  | frame :: stack => .next (fill frame stack v)

/-- A word ends with the character at hand; in the stream a delimiter must follow. -/
def closeWord (stack : List Frame) (v : Value) : Step :=
  match stack with
  | [] => .next ⟨[], .ended v⟩
  | frame :: stack => .next (fill frame stack v)

/-- A container opens inside those of the stack. -/
def nest (stack : List Frame) (mode : Mode) : Step :=
  if stack.length < maxNesting then .next ⟨stack, mode⟩ else .fail (.here .nestedTooDeep)

/-- A value begins. -/
def begin (stack : List Frame) (c : Char) : Step :=
  match c with
  | '"' => .next ⟨stack, .text .value [] .none⟩
  | '[' => nest stack (.list [] .opened)
  | '{' => nest stack (.object [] .opened)
  | 'n' => .next ⟨stack, .word ['u', 'l', 'l'] .null⟩
  | 't' => .next ⟨stack, .word ['r', 'u', 'e'] (.bool true)⟩
  | 'f' => .next ⟨stack, .word ['a', 'l', 's', 'e'] (.bool false)⟩
  | _ =>
    match Numeral.start? c with
    | some n => .next ⟨stack, .number n⟩
    | none => .fail (.here .expectedValue)

/-! ## Texts -/

/-- A unit of an escape is complete. -/
def unit (stack : List Frame) (role : Role) (done : List Char) (high : Option Nat) (code : Nat) : Step :=
  match high with
  | none =>
    if isLow code then .fail (.here .loneSurrogate)
    else if isHigh code then .next ⟨stack, .text role done (.pair code)⟩
    else .next ⟨stack, .text role (Char.ofNat code :: done) .none⟩
  | some high =>
    if isLow code then .next ⟨stack, .text role (ofPair high code :: done) .none⟩
    else .fail (.here .loneSurrogate)

/-- A text with one more character. A unit takes four bytes, whatever they are, before it is looked at. -/
def text (stack : List Frame) (role : Role) (done : List Char) (escape : Escape) (c : Char) : Step :=
  match escape with
  | .none =>
    if c = '"' then
      let s := String.ofList done.reverse
      match role with
      | .key members => .next ⟨stack, .colon members s⟩
      | .value => close stack (.text s)
    else if c = '\\' then .next ⟨stack, .text role done .backslash⟩
    else if c < ' ' then .fail (.here .controlCharacter)
    else .next ⟨stack, .text role (c :: done) .none⟩
  | .backslash =>
    if c = 'u' then .next ⟨stack, .text role done (.unit none (some 0) 0)⟩
    else
      match escaped? c with
      | some e => .next ⟨stack, .text role (e :: done) .none⟩
      | none => .fail (.here .invalidEscape)
  | .unit high code bytes =>
    let code := code.bind fun n => (Text.hexDigit? c).map (n * 16 + ·)
    if bytes + c.utf8Size < 4 then .next ⟨stack, .text role done (.unit high code (bytes + c.utf8Size))⟩
    else
      match code with
      | some n => unit stack role done high n
      | none => .fail ⟨.invalidEscape, 4 - bytes⟩
  | .pair high =>
    if c = '\\' then .next ⟨stack, .text role done (.pairBackslash high)⟩ else .fail (.here .unfinishedPair)
  | .pairBackslash high =>
    if c = 'u' then .next ⟨stack, .text role done (.unit (some high) (some 0) 0)⟩ else .fail (.here .unfinishedPair)

/-! ## Steps -/

/-- A character inside a list. -/
def list (stack : List Frame) (items : List Value) (filling : Filling) (c : Char) : Step :=
  if isSpace c then .next ⟨stack, .list items filling⟩
  else
    match filling, c with
    | .opened, ']' => close stack (.list items.reverse)
    | .opened, _ => begin (.list items :: stack) c
    | .comma, ']' => .fail (.here .trailingComma)
    | .comma, _ => begin (.list items :: stack) c
    | .filled, ']' => close stack (.list items.reverse)
    | .filled, ',' => .next ⟨stack, .list items .comma⟩
    | .filled, _ => .fail (.here .expectedListEnd)

/-- A character inside an object. -/
def object (stack : List Frame) (members : List (String × Value)) (filling : Filling) (c : Char) : Step :=
  if isSpace c then .next ⟨stack, .object members filling⟩
  else
    match filling, c with
    | .opened, '}' => close stack (.object members)
    | .opened, '"' => .next ⟨stack, .text (.key members) [] .none⟩
    | .opened, _ => .fail (.here .keyNotText)
    | .comma, '}' => .fail (.here .trailingComma)
    | .comma, '"' => .next ⟨stack, .text (.key members) [] .none⟩
    | .comma, _ => .fail (.here .keyNotText)
    | .filled, '}' => close stack (.object members)
    | .filled, ',' => .next ⟨stack, .object members .comma⟩
    | .filled, _ => .fail (.here .expectedObjectEnd)

/-- A character, where it cannot end what came before it. -/
def step (m : Machine) (c : Char) : Step :=
  match m.mode with
  | .between | .start => if isSpace c then .next m else begin m.stack c
  | .list items filling => list m.stack items filling c
  | .object members filling => object m.stack members filling c
  | .colon members key =>
    if isSpace c then .next m
    else if c = ':' then .next ⟨.object members key :: m.stack, .start⟩
    else .fail (.here .expectedColon)
  | .text role done escape => text m.stack role done escape c
  | .word [l] v => if c = l then closeWord m.stack v else .fail (.here .expectedWord)
  | .word (l :: left) v => if c = l then .next ⟨m.stack, .word left v⟩ else .fail (.here .expectedWord)
  | .word [] _ | .number _ | .ended _ => .fail (.here .trailingCharacters)

/-- What a character does, and the value of the stream that ended before it. -/
structure Fed where
  ended : Option Value
  step : Step

/-- A value of the stream ends before the character, which must be a delimiter. -/
def endBefore (v : Value) (c : Char) : Fed :=
  if isDelimiter c then ⟨some v, idle.step c⟩ else ⟨none, .fail (.here .trailingCharacters)⟩

/-- A character. -/
def feed (m : Machine) (c : Char) : Fed :=
  match m.mode with
  | .number n =>
    match n.step c with
    | .more n => ⟨none, .next ⟨m.stack, .number n⟩⟩
    | .fail t => ⟨none, .fail t⟩
    | .ended =>
      match n.value?, m.stack with
      | none, _ => ⟨none, .fail ⟨.numberTooLarge, 0⟩⟩
      | some x, [] => endBefore (.number x) c
      | some x, frame :: stack => ⟨none, (fill frame stack (.number x)).step c⟩
  | .ended v => endBefore v c
  | _ => ⟨none, m.step c⟩

/-! ## The end of the text -/

/-- Why a text that ends here is no stream, if it is none, where no value ends with it. -/
def missing (m : Machine) : Option Cause :=
  match m.mode with
  | .between | .ended _ => none
  | .list _ .comma | .object _ .comma | .start | .number _ | .word _ _ => some .endInValue
  | .list _ _ => some .endInList
  | .object _ _ | .colon _ _ => some .endInObject
  | .text _ _ _ => some .endInText

/-- The value of the stream that ends with the text, and why the text is no stream, if it is none. -/
def finish (m : Machine) : Option Value × Option Cause :=
  match m.mode with
  | .number n =>
    if n.isComplete then
      match n.value?, m.stack with
      | none, _ => (none, some .numberTooLarge)
      | some x, [] => (some (.number x), none)
      | some x, frame :: stack => (none, (fill frame stack (.number x)).missing)
    else (none, some .endInValue)
  | .ended v => (some v, none)
  | _ => (none, m.missing)

end Machine

end Pinpoint.Json
