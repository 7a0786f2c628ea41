import Pinpoint.Input.Collection

/-!
# Pools

Inputs that are read at once. A pool has workers and a line of inputs that wait for one. A worker takes the first input
of the line, reads it to its end and sends what it gave, with the index of the input, over a channel that all workers
share. So results come in any order, and only the index says which input one belongs to: when all workers are done,
each result is put into the slot of its index. The slot of a worker that broke down stays empty.
-/

namespace Pinpoint

/-! ## Indices -/

/-- Something that belongs to the input of the given index. -/
structure Indexed (α : Type) where
  index : Nat
  item : α
  deriving DecidableEq, Repr, Inhabited

/-- Items with their indices. -/
def indexed (items : List α) : List (Indexed α) := items.zipIdx.map fun (item, index) => ⟨index, item⟩

/-- Slots for the inputs, each filled with what came for its index. -/
def slotted (count : Nat) (arrivals : List (Indexed α)) : List (Option α) :=
  arrivals.foldl (fun slots a => slots.set a.index (some a.item)) (List.replicate count none)

/-! ## Workers -/

/-- What a worker is about. -/
inductive Task where
  /-- The input is to be read. -/
  | reading (name : String)
  /-- What the input gave is to be sent. -/
  | sending (c : Collected)
  deriving Inhabited

/-- A pool at work. -/
structure Pool where
  /-- How many workers there are. -/
  size : Nat
  /-- The inputs that wait for a worker. -/
  waiting : List (Indexed String)
  /-- The workers that are not free. -/
  busy : List (Indexed Task)
  /-- What is left on the standard input. -/
  stdin : List Delivery
  events : List Event
  /-- What was sent, the earliest first. -/
  channel : List (Indexed Collected)
  deriving Inhabited

namespace Pool

/-- What may happen next. A worker is named by its place among the busy ones. -/
inductive Move where
  /-- A free worker takes the first input that waits. -/
  | take
  /-- A worker reads its input to the end; nobody else reads the standard input meanwhile. -/
  | read (worker : Nat)
  /-- A worker sends what its input gave, and is free. -/
  | send (worker : Nat)
  /-- A worker breaks down before it sent anything, and a free one takes its place. -/
  | lose (worker : Nat)
  deriving DecidableEq, Repr, Inhabited

/-- A pool before it starts. It has a worker even if none is asked for. -/
def start (s : Surroundings) (jobs : UInt64) (names : List String) : Pool :=
  ⟨max jobs.toNat 1, indexed names, [], s.stdin, [], []⟩

/-- A move made; nothing happens if it cannot be made. -/
def advance (s : Surroundings) (p : Pool) : Move → Pool
  | .take =>
    match p.waiting with
    | [] => p
    | a :: waiting =>
      if p.busy.length < p.size then { p with waiting, busy := p.busy ++ [⟨a.index, .reading a.item⟩] } else p
  | .read worker =>
    match p.busy[worker]? with
    | some ⟨index, .reading name⟩ =>
      let (source, stdin) := s.source p.stdin name
      let read := source.collect
      { p with busy := p.busy.set worker ⟨index, .sending read.result⟩, stdin, events := p.events ++ read.events }
    | _ => p
  | .send worker =>
    match p.busy[worker]? with
    | some ⟨index, .sending c⟩ =>
      { p with busy := p.busy.eraseIdx worker, channel := p.channel ++ [⟨index, c⟩] }
    | _ => p
  | .lose worker => { p with busy := p.busy.eraseIdx worker }

/-- The pool after a schedule of moves. -/
def perform (s : Surroundings) (p : Pool) (moves : List Move) : Pool := moves.foldl (advance s) p

/-- The pool for the inputs after a schedule. -/
def after (s : Surroundings) (jobs : UInt64) (names : List String) (moves : List Move) : Pool :=
  (start s jobs names).perform s moves

/-- All inputs have been taken and all workers are free. -/
def isDone (p : Pool) : Bool := p.waiting.isEmpty && p.busy.isEmpty

/-- What came out of a pool for its inputs: what is in their slots, and an error where a slot is empty. -/
def collected (p : Pool) (names : List String) : Logged (List Collected) :=
  let slots := (slotted names.length p.channel).zip names
  let missing := slots.filterMap fun (slot, name) => if slot.isNone then some name else none
  ⟨p.events ++ missing.map .resultMissing ++ [.inputsCollected names.length],
    slots.map fun (slot, name) => slot.getD ⟨name, .error (.lost name)⟩⟩

/-- The schedule in which each input is read and sent before the next one is taken. -/
def inOrder (count : Nat) : List Move := (List.replicate count [.take, .read 0, .send 0]).flatten

end Pool

/-- The messages of all inputs, read by a pool as the schedule has it. -/
def Surroundings.collectPooled (s : Surroundings) (jobs : UInt64) (names : List String) (moves : List Pool.Move) :
    Logged (List Collected) :=
  (Pool.after s jobs names moves).collected names

end Pinpoint
