import Pinpoint.Proofs.Json.Grammar

/-!
# Values as they are written

A `Tree` is a value with the members of its objects in the order of the text, also those that give way to a later member
of the same key. `Writes d w t` derives trees from texts as the grammar derives values: each text of a tree is a text of
its value (`Writes.spells`), and each text of a value is one of a tree (`Spells.exists_writes`). A member of an object
is found by its key, the last one first (`Tree.lookup_collect`).
-/

namespace Pinpoint.Json

/-- A value as it is written. -/
inductive Tree where
  /-- A word, a number or a text. -/
  | leaf (v : Value)
  | list (items : List Tree)
  | object (members : List (String × Tree))

namespace Tree

mutual

/-- The value that is read. -/
def value : Tree → Value
  | .leaf v => v
  | .list ts => .list (values ts)
  | .object ms => .object (collect [] ms)
termination_by structural t => t

def values : List Tree → List Value
  | [] => []
  | t :: ts => t.value :: values ts
termination_by structural ts => ts

/-- More members for an object, one after the other. -/
def collect (members : List (String × Value)) : List (String × Tree) → List (String × Value)
  | [] => members
  | (key, t) :: ms => collect (Value.insert key t.value members) ms
termination_by structural ms => ms

end

theorem values_eq (ts : List Tree) : values ts = ts.map value := by
  induction ts with
  | nil => rfl
  | cons t ts ih => rw [values, ih, List.map_cons]

theorem collect_append (members : List (String × Value)) (ms ms' : List (String × Tree)) :
    collect members (ms ++ ms') = collect (collect members ms) ms' := by
  induction ms generalizing members with
  | nil => rfl
  | cons m ms ih => rw [List.cons_append, collect, collect, ih]

/-- The last member of a key is the one that is found. -/
theorem lookup_collect (members : List (String × Value)) (ms : List (String × Tree)) (key : String) :
    (collect members ms).lookup key = ((ms.reverse.lookup key).map value).or (members.lookup key) := by
  induction ms generalizing members with
  | nil => rfl
  | cons m ms ih =>
    obtain ⟨k, t⟩ := m
    rw [collect, ih, Value.lookup_insert, List.reverse_cons, List.lookup_append]
    cases ms.reverse.lookup key with
    | some t' => rfl
    | none =>
      by_cases hk : key = k
      · subst hk
        simp
      · simp [List.lookup_cons, hk, beq_eq_false_iff_ne.mpr hk]

end Tree

/-! ## Texts of trees -/

mutual

/-- The text is the tree, its containers nested at most so deep. -/
inductive Writes : Nat → List Char → Tree → Prop
  | leaf {d : Nat} {w : List Char} {v : Value} : Spells 0 w v → Writes d w (.leaf v)
  | emptyList {d : Nat} {b : List Char} : Blank b → Writes (d + 1) ('[' :: b ++ [']']) (.list [])
  | list {d : Nat} {w : List Char} {ts : List Tree} : WritesItems d w ts → Writes (d + 1) ('[' :: w ++ [']']) (.list ts)
  | emptyObject {d : Nat} {b : List Char} : Blank b → Writes (d + 1) ('{' :: b ++ ['}']) (.object [])
  | object {d : Nat} {w : List Char} {ms : List (String × Tree)} : WritesMembers d w ms →
      Writes (d + 1) ('{' :: w ++ ['}']) (.object ms)

/-- One item or more with space around them, and commas between them. -/
inductive WritesItems : Nat → List Char → List Tree → Prop
  | one {d : Nat} {b w b' : List Char} {t : Tree} : Blank b → Writes d w t → Blank b' → WritesItems d (b ++ w ++ b') [t]
  | more {d : Nat} {u b w b' : List Char} {ts : List Tree} {t : Tree} : WritesItems d u ts → Blank b → Writes d w t →
      Blank b' → WritesItems d (u ++ ',' :: (b ++ w ++ b')) (ts ++ [t])

/-- One member or more with space around their keys and values, and commas between them. -/
inductive WritesMembers : Nat → List Char → List (String × Tree) → Prop
  | one {d : Nat} {b k b' c w c' : List Char} {key : String} {t : Tree} : Blank b → SpellsText k key → Blank b' →
      Blank c → Writes d w t → Blank c' → WritesMembers d (b ++ k ++ b' ++ ':' :: (c ++ w ++ c')) [(key, t)]
  | more {d : Nat} {u b k b' c w c' : List Char} {ms : List (String × Tree)} {key : String} {t : Tree} :
      WritesMembers d u ms → Blank b → SpellsText k key → Blank b' → Blank c → Writes d w t → Blank c' →
      WritesMembers d (u ++ ',' :: (b ++ k ++ b' ++ ':' :: (c ++ w ++ c'))) (ms ++ [(key, t)])

end

/-- Without containers a value may stand at any depth. -/
theorem Spells.deeper {w : List Char} {v : Value} (h : Spells 0 w v) (d : Nat) : Spells d w v := by
  cases h with
  | word h => exact .word h
  | number h hn hx => exact .number h hn hx
  | text h => exact .text h

mutual

/-- **A text of a tree is a text of its value.** -/
theorem Writes.spells {d : Nat} {w : List Char} {t : Tree} : Writes d w t → Spells d w t.value
  | .leaf h => h.deeper d
  | .emptyList hb => .emptyList hb
  | .list h => .list h.spells
  | .emptyObject hb => .emptyObject hb
  | .object h => .object h.spells

theorem WritesItems.spells {d : Nat} {w : List Char} {ts : List Tree} : WritesItems d w ts →
    SpellsItems d w (Tree.values ts)
  | .one hb h hb' => .one (.padded hb h.spells hb')
  | .more hu hb h hb' => by
    have hitems := hu.spells
    rw [Tree.values_eq] at hitems
    rw [Tree.values_eq, List.map_append, List.map_singleton]
    exact .more hitems (.padded hb h.spells hb')

theorem WritesMembers.spells {d : Nat} {w : List Char} {ms : List (String × Tree)} : WritesMembers d w ms →
    SpellsMembers d w (Tree.collect [] ms)
  | .one hb hk hb' hc h hc' => .one (.keyed hb hk hb' (.padded hc h.spells hc'))
  | .more hu hb hk hb' hc h hc' => by
    rw [Tree.collect_append]
    exact .more hu.spells (.keyed hb hk hb' (.padded hc h.spells hc'))

end

mutual

/-- **Every text of a value is a text of a tree.** -/
theorem Spells.exists_writes {d : Nat} {w : List Char} {v : Value} : Spells d w v → ∃ t, Writes d w t ∧ t.value = v
  | .word h => ⟨_, .leaf (.word h), rfl⟩
  | .number h hn hx => ⟨_, .leaf (.number h hn hx), rfl⟩
  | .text h => ⟨_, .leaf (.text h), rfl⟩
  | .emptyList hb => ⟨_, .emptyList hb, rfl⟩
  | .list h => by
    obtain ⟨ts, hts, rfl⟩ := h.exists_writes
    exact ⟨_, .list hts, rfl⟩
  | .emptyObject hb => ⟨_, .emptyObject hb, rfl⟩
  | .object h => by
    obtain ⟨ms, hms, rfl⟩ := h.exists_writes
    exact ⟨_, .object hms, rfl⟩

theorem SpellsItems.exists_writes {d : Nat} {w : List Char} {vs : List Value} : SpellsItems d w vs →
    ∃ ts, WritesItems d w ts ∧ Tree.values ts = vs
  | .one (.padded hb h hb') => by
    obtain ⟨t, ht, rfl⟩ := h.exists_writes
    exact ⟨[t], .one hb ht hb', rfl⟩
  | .more hu (.padded hb h hb') => by
    obtain ⟨ts, hts, rfl⟩ := hu.exists_writes
    obtain ⟨t, ht, rfl⟩ := h.exists_writes
    refine ⟨ts ++ [t], .more hts hb ht hb', ?_⟩
    rw [Tree.values_eq, Tree.values_eq, List.map_append, List.map_singleton]

theorem SpellsMembers.exists_writes {d : Nat} {w : List Char} {members : List (String × Value)} :
    SpellsMembers d w members → ∃ ms, WritesMembers d w ms ∧ Tree.collect [] ms = members
  | .one (.keyed hb hk hb' (.padded hc h hc')) => by
    obtain ⟨t, ht, rfl⟩ := h.exists_writes
    exact ⟨_, .one hb hk hb' hc ht hc', rfl⟩
  | .more hu (.keyed hb hk hb' (.padded hc h hc')) => by
    obtain ⟨ms, hms, rfl⟩ := hu.exists_writes
    obtain ⟨t, ht, rfl⟩ := h.exists_writes
    refine ⟨_, .more hms hb hk hb' hc ht hc', ?_⟩
    rw [Tree.collect_append]
    rfl

end

/-! ## Streams of trees -/

/-- Trees one after another, with space before each of them and at the end. -/
inductive WritesStream : List Char → List Tree → Prop
  | done {b : List Char} : Blank b → WritesStream b []
  | tree {b w rest : List Char} {t : Tree} {ts : List Tree} : Blank b → Writes maxNesting w t →
      (t.value.isLoose = true → ∀ c ∈ rest.head?, Machine.isDelimiter c = true) → WritesStream rest ts →
      WritesStream (b ++ w ++ rest) (t :: ts)

/-- The streams of the grammar are those of trees. -/
theorem spellsStream_iff {w : List Char} {vs : List Value} :
    SpellsStream w vs ↔ ∃ ts, WritesStream w ts ∧ ts.map Tree.value = vs := by
  constructor
  · intro h
    induction h with
    | done hb => exact ⟨[], .done hb, rfl⟩
    | value hb hw hloose _ ih =>
      obtain ⟨ts, hts, rfl⟩ := ih
      obtain ⟨t, ht, rfl⟩ := hw.exists_writes
      exact ⟨t :: ts, .tree hb ht hloose hts, rfl⟩
  · rintro ⟨ts, hts, rfl⟩
    induction hts with
    | done hb => exact .done hb
    | tree hb hw hloose _ ih => exact .value hb hw.spells hloose ih

end Pinpoint.Json
