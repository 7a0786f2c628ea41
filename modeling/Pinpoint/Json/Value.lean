/-!
# JSON values

A value as it is read: numbers keep whether they were whole, and the members of an object stand in ascending order of
their keys, each key once. `insert` keeps that order and lets the last member of a key win, so two texts that differ
only in the order of members are read as one value.
-/

namespace Pinpoint.Json

/-- A whole number of 64 bits, or a 64-bit binary number for all that is none. -/
inductive Number where
  | natural (n : UInt64)
  /-- Below zero. -/
  | negative (n : Int64)
  | binary (x : Float)
  deriving DecidableEq, Repr, Inhabited

inductive Value where
  | null
  | bool (b : Bool)
  | number (n : Number)
  | text (s : String)
  | list (items : List Value)
  | object (members : List (String × Value))
  deriving Repr, Inhabited, BEq

namespace Value

def isNull : Value → Bool
  | .null => true
  | _ => false

/-- The members with one more; a member of the same key gives way to it. -/
def insert (key : String) (v : Value) : List (String × Value) → List (String × Value)
  | [] => [(key, v)]
  | (k, w) :: members =>
    if key < k then (key, v) :: (k, w) :: members
    else if key = k then (key, v) :: members
    else (k, w) :: insert key v members

theorem lookup_insert (key k : String) (v : Value) (members : List (String × Value)) :
    (insert key v members).lookup k = if k = key then some v else members.lookup k := by
  induction members with
  | nil => by_cases h : k = key <;> simp [insert, List.lookup_cons, h, beq_eq_false_iff_ne.2]
  | cons m members ih =>
    obtain ⟨k', w⟩ := m
    simp only [insert]
    split
    · by_cases h : k = key <;> simp [List.lookup_cons, h, beq_eq_false_iff_ne.2]
    split
    · next h' => subst h'; by_cases h : k = key <;> simp [List.lookup_cons, h, beq_eq_false_iff_ne.2]
    · next h' =>
      rw [List.lookup_cons, List.lookup_cons, ih]
      by_cases h : k = key
      · subst h; simp [beq_eq_false_iff_ne.2 h']
      · simp [h]

/-- The value of a member of an object. -/
def get? (key : String) : Value → Option Value
  | .object members => members.lookup key
  | _ => none

end Value

end Pinpoint.Json
