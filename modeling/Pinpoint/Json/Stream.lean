import Pinpoint.Json.Machine

/-!
# Streams of JSON values

A text holds JSON values one after another, as far as its first fault. `Stream.ofText` reads them all, each with the
offset of its start: the number of bytes up to the end of the value before it.
-/

namespace Pinpoint.Json

/-- The values of a text up to its end or its first fault, each with the offset of its start; the end has the offset at
which one more value would start. -/
inductive Stream where
  | finished (start : Nat)
  | broken (start : Nat) (fault : Fault)
  | value (start : Nat) (v : Value) (rest : Stream)
  deriving Repr, Inhabited

namespace Stream

/-- How many values there are before the end or the fault. -/
def length : Stream → Nat
  | .finished _ | .broken _ _ => 0
  | .value _ _ rest => rest.length + 1

/-- The offsets at which values start, with that of the end or the fault last. -/
def starts : Stream → List Nat
  | .finished start | .broken start _ => [start]
  | .value start _ rest => start :: rest.starts

/-- A value that may have ended, in front of the rest of a stream. -/
def consider (start : Nat) (ended : Option Value) (rest : Stream) : Stream :=
  match ended with
  | none => rest
  | some v => .value start v rest

/-- The end of the text at `here`, where the values since `start` are still to be handed out. -/
def atEnd (m : Machine) (start : Nat) (here : Place) : Stream :=
  let (ended, missing) := m.finish
  let current := if ended.isSome then here.offset else start
  consider start ended <|
    match missing with
    | none => .finished current
    | some cause => .broken current (cause.atEnd here)

/-- Feeds the characters from `here` on to a machine that has read the value from `start` up to `here`. -/
def run (m : Machine) (start : Nat) (here : Place) : List Char → Stream
  | [] => atEnd m start here
  | c :: cs =>
    let fed := m.feed c
    let current := if fed.ended.isSome then here.offset else start
    consider start fed.ended <|
      match fed.step with
      | .next m => run m current (here.after c) cs
      | .value v => .value current v (run .idle (here.after c).offset (here.after c) cs)
      | .fail t => .broken current (t.at here c)

/-- The values of a text. -/
def ofText (s : String) : Stream := run .idle 0 .origin s.toList

end Stream

end Pinpoint.Json
