import Pinpoint.Proofs.Json.Grammar

/-!
# How deep values are nested

`Value.Within P d v` says that the containers of `v` are nested at most `d` deep and that its numbers are of the kind
`P`. The values of the grammar are as deep as their texts (`Spells.within`), so none that is read is deeper than the
reader allows.
-/

namespace Pinpoint.Json

/-- The containers of the value are nested at most so deep, and its numbers are of the given kind. -/
inductive Value.Within (P : Number → Prop) : Nat → Value → Prop
  | null {d : Nat} : Within P d .null
  | bool {d : Nat} {b : Bool} : Within P d (.bool b)
  | number {d : Nat} {x : Number} : P x → Within P d (.number x)
  | text {d : Nat} {s : String} : Within P d (.text s)
  | list {d : Nat} {vs : List Value} : (∀ v ∈ vs, Within P d v) → Within P (d + 1) (.list vs)
  | object {d : Nat} {ms : List (String × Value)} : (∀ m ∈ ms, Within P d m.2) → Within P (d + 1) (.object ms)

/-- No kind of numbers is asked for. -/
abbrev Value.Nested (d : Nat) (v : Value) : Prop := v.Within (fun _ => True) d

namespace Value

theorem mem_insert {key : String} {v : Value} {members : List (String × Value)} {m : String × Value}
    (h : m ∈ insert key v members) : m = (key, v) ∨ m ∈ members := by
  induction members with
  | nil => exact .inl (List.mem_singleton.mp h)
  | cons m' members ih =>
    obtain ⟨k, w⟩ := m'
    unfold insert at h
    split at h
    · exact List.mem_cons.mp h
    split at h
    · rcases List.mem_cons.mp h with rfl | h
      · exact .inl rfl
      · exact .inr (List.mem_cons_of_mem _ h)
    · rcases List.mem_cons.mp h with rfl | h
      · exact .inr List.mem_cons_self
      · exact (ih h).imp_right (List.mem_cons_of_mem _)

/-- Another member in its place keeps the depth. -/
theorem nested_insert {d : Nat} {key : String} {v : Value} {members : List (String × Value)}
    (hv : v.Nested d) (h : ∀ m ∈ members, m.2.Nested d) : ∀ m ∈ insert key v members, m.2.Nested d := by
  intro m hm
  rcases mem_insert hm with rfl | hm
  · exact hv
  · exact h m hm

end Value

theorem SpellsWord.within {w : List Char} {v : Value} (h : SpellsWord w v) (d : Nat) : v.Nested d := by
  cases h with
  | null => exact .null
  | yes => exact .bool
  | no => exact .bool

mutual

/-- **Values are nested as deep as their texts.** -/
theorem Spells.within {d : Nat} {w : List Char} {v : Value} : Spells d w v → v.Nested d
  | .word h => h.within d
  | .number _ _ _ => .number trivial
  | .text _ => .text
  | .emptyList _ => .list (List.forall_mem_nil _)
  | .list h => .list h.within
  | .emptyObject _ => .object (List.forall_mem_nil _)
  | .object h => .object h.within

theorem SpellsItems.within {d : Nat} {w : List Char} {vs : List Value} : SpellsItems d w vs → ∀ v ∈ vs, v.Nested d
  | .one (.padded _ h _) => by
    intro v hv
    rw [List.mem_singleton.mp hv]
    exact h.within
  | .more hu (.padded _ h _) => by
    intro v hv
    rcases List.mem_append.mp hv with hv | hv
    · exact hu.within v hv
    · rw [List.mem_singleton.mp hv]
      exact h.within

theorem SpellsMembers.within {d : Nat} {w : List Char} {members : List (String × Value)} :
    SpellsMembers d w members → ∀ m ∈ members, m.2.Nested d
  | .one (.keyed _ _ _ (.padded _ h _)) => Value.nested_insert h.within (List.forall_mem_nil _)
  | .more hu (.keyed _ _ _ (.padded _ h _)) => Value.nested_insert h.within hu.within

end

/-- The values of a stream are nested no deeper than is allowed. -/
theorem SpellsStream.within {w : List Char} {vs : List Value} (h : SpellsStream w vs) :
    ∀ v ∈ vs, v.Nested maxNesting := by
  induction h with
  | done _ => exact List.forall_mem_nil _
  | value _ hw _ _ ih =>
    intro u hu
    rcases List.mem_cons.mp hu with rfl | hu
    · exact hw.within
    · exact ih u hu

end Pinpoint.Json
