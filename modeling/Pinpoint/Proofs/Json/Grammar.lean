import Mathlib.Data.List.Induction
import Pinpoint.Json.Machine

/-!
# The grammar of JSON

Which texts are which values, said without the reading machine: `Spells d w v` derives the value `v` from the text `w`
whose containers are nested at most `d` deep, and `SpellsStream w vs` the values of a whole stream. A member of an
object takes the place of an earlier one with the same key, and a number or word of the stream needs a delimiter after
it. Only a numeral is read as the machine reads it, character by character; `spells_natural_iff` says which of them are
the whole numbers from zero up.
-/

namespace Pinpoint.Json

/-! ## Blanks, texts, words and numerals -/

/-- Nothing but space. -/
def Blank (w : List Char) : Prop := ∀ c ∈ w, Machine.isSpace c = true

/-- The number that hexadecimal digits spell. -/
def unit? (ds : List Char) : Option Nat :=
  ds.foldl (fun code c => code.bind fun n => (Text.hexDigit? c).map (n * 16 + ·)) (some 0)

/-- A character as it may stand between quotes: as it is, or escaped by a letter, a unit or a pair of units. -/
inductive SpellsChar : List Char → Char → Prop
  | plain {c : Char} : c ≠ '"' → c ≠ '\\' → ¬c < ' ' → SpellsChar [c] c
  | letter {e c : Char} : Machine.escaped? e = some c → SpellsChar ['\\', e] c
  | unit {ds : List Char} {n : Nat} : ds.length = 4 → unit? ds = some n → Machine.isHigh n = false →
      Machine.isLow n = false → SpellsChar ('\\' :: 'u' :: ds) (Char.ofNat n)
  | pair {ds es : List Char} {high low : Nat} : ds.length = 4 → unit? ds = some high → Machine.isHigh high = true →
      es.length = 4 → unit? es = some low → Machine.isLow low = true →
      SpellsChar ('\\' :: 'u' :: ds ++ '\\' :: 'u' :: es) (Machine.ofPair high low)

/-- Characters between quotes. -/
inductive SpellsChars : List Char → List Char → Prop
  | nil : SpellsChars [] []
  | snoc {w x cs : List Char} {c : Char} : SpellsChars w cs → SpellsChar x c → SpellsChars (w ++ x) (cs ++ [c])

/-- A text in its quotes. -/
inductive SpellsText : List Char → String → Prop
  | quoted {w cs : List Char} : SpellsChars w cs → SpellsText ('"' :: w ++ ['"']) (String.ofList cs)

/-- The words that are values. -/
inductive SpellsWord : List Char → Value → Prop
  | null : SpellsWord ['n', 'u', 'l', 'l'] .null
  | yes : SpellsWord ['t', 'r', 'u', 'e'] (.bool true)
  | no : SpellsWord ['f', 'a', 'l', 's', 'e'] (.bool false)

/-- The beginnings of numerals. -/
inductive SpellsNumeral : List Char → Numeral → Prop
  | start {c : Char} {n : Numeral} : Numeral.start? c = some n → SpellsNumeral [c] n
  | more {w : List Char} {c : Char} {n n' : Numeral} : SpellsNumeral w n → n.step c = .more n' →
      SpellsNumeral (w ++ [c]) n'

/-! ## Values -/

mutual

/-- The text is the value, its containers nested at most so deep. -/
inductive Spells : Nat → List Char → Value → Prop
  | word {d : Nat} {w : List Char} {v : Value} : SpellsWord w v → Spells d w v
  | number {d : Nat} {w : List Char} {n : Numeral} {x : Number} : SpellsNumeral w n → n.isComplete = true →
      n.value? = some x → Spells d w (.number x)
  | text {d : Nat} {w : List Char} {s : String} : SpellsText w s → Spells d w (.text s)
  | emptyList {d : Nat} {b : List Char} : Blank b → Spells (d + 1) ('[' :: b ++ [']']) (.list [])
  | list {d : Nat} {w : List Char} {vs : List Value} : SpellsItems d w vs →
      Spells (d + 1) ('[' :: w ++ [']']) (.list vs)
  | emptyObject {d : Nat} {b : List Char} : Blank b → Spells (d + 1) ('{' :: b ++ ['}']) (.object [])
  | object {d : Nat} {w : List Char} {members : List (String × Value)} : SpellsMembers d w members →
      Spells (d + 1) ('{' :: w ++ ['}']) (.object members)

/-- A value with space around it. -/
inductive SpellsItem : Nat → List Char → Value → Prop
  | padded {d : Nat} {b w b' : List Char} {v : Value} : Blank b → Spells d w v → Blank b' →
      SpellsItem d (b ++ w ++ b') v

/-- One item or more, with commas between them. -/
inductive SpellsItems : Nat → List Char → List Value → Prop
  | one {d : Nat} {w : List Char} {v : Value} : SpellsItem d w v → SpellsItems d w [v]
  | more {d : Nat} {u w : List Char} {vs : List Value} {v : Value} : SpellsItems d u vs → SpellsItem d w v →
      SpellsItems d (u ++ ',' :: w) (vs ++ [v])

/-- A key, a colon and an item. -/
inductive SpellsMember : Nat → List Char → String → Value → Prop
  | keyed {d : Nat} {b k b' w : List Char} {key : String} {v : Value} : Blank b → SpellsText k key → Blank b' →
      SpellsItem d w v → SpellsMember d (b ++ k ++ b' ++ ':' :: w) key v

/-- One member or more, with commas between them; the last member of a key counts. -/
inductive SpellsMembers : Nat → List Char → List (String × Value) → Prop
  | one {d : Nat} {w : List Char} {key : String} {v : Value} : SpellsMember d w key v →
      SpellsMembers d w (Value.insert key v [])
  | more {d : Nat} {u w : List Char} {members : List (String × Value)} {key : String} {v : Value} :
      SpellsMembers d u members → SpellsMember d w key v →
      SpellsMembers d (u ++ ',' :: w) (Value.insert key v members)

end

/-! ## Streams -/

/-- A value that does not end with its own last character. -/
def Value.isLoose : Value → Bool
  | .null | .bool _ | .number _ => true
  | .text _ | .list _ | .object _ => false

/-- Values one after another, with space before each of them and at the end. -/
inductive SpellsStream : List Char → List Value → Prop
  | done {b : List Char} : Blank b → SpellsStream b []
  | value {b w rest : List Char} {v : Value} {vs : List Value} : Blank b → Spells maxNesting w v →
      (v.isLoose = true → ∀ c ∈ rest.head?, Machine.isDelimiter c = true) → SpellsStream rest vs →
      SpellsStream (b ++ w ++ rest) (v :: vs)

/-! ## Small facts -/

theorem Blank.nil : Blank [] := by simp [Blank]

theorem blank_cons {c : Char} {w : List Char} : Blank (c :: w) ↔ Machine.isSpace c = true ∧ Blank w := by
  simp [Blank]

theorem blank_append {u w : List Char} : Blank (u ++ w) ↔ Blank u ∧ Blank w := by
  simp only [Blank, List.mem_append]
  exact ⟨fun h => ⟨fun c hc => h c (.inl hc), fun c hc => h c (.inr hc)⟩,
    fun h c hc => hc.elim (h.1 c) (h.2 c)⟩

theorem Blank.snoc {w : List Char} {c : Char} (h : Blank w) (hc : Machine.isSpace c = true) : Blank (w ++ [c]) :=
  blank_append.mpr ⟨h, blank_cons.mpr ⟨hc, Blank.nil⟩⟩

/-- A text without quotes, backslashes and control characters needs no escapes. -/
theorem SpellsText.plain {s : String} (h : ∀ c ∈ s.toList, c ≠ '"' ∧ c ≠ '\\' ∧ ¬c < ' ') :
    SpellsText ('"' :: s.toList ++ ['"']) s := by
  suffices hchars : SpellsChars s.toList s.toList by
    have hquoted := SpellsText.quoted hchars
    rwa [String.ofList_toList] at hquoted
  generalize s.toList = cs at h
  induction cs using List.reverseRecOn with
  | nil => exact .nil
  | append_singleton cs c ih =>
    obtain ⟨hquote, hslash, hcontrol⟩ := h c (by simp)
    exact .snoc (ih fun c' hc' => h c' (List.mem_append_left _ hc')) (.plain hquote hslash hcontrol)

/-- A word of the language is a loose value. -/
theorem SpellsWord.isLoose {w : List Char} {v : Value} (h : SpellsWord w v) : v.isLoose = true := by
  cases h <;> rfl

/-- Values that are not loose end with a quote or a bracket. -/
theorem Spells.last {d : Nat} {w : List Char} {v : Value} (h : Spells d w v) (hv : v.isLoose = false) :
    ∃ u c, w = u ++ [c] ∧ Machine.isSpace c = false := by
  cases h with
  | word h => rw [h.isLoose] at hv; cases hv
  | number _ _ _ => cases hv
  | text h => cases h with | @quoted u _ _ => exact ⟨'"' :: u, '"', rfl, rfl⟩
  | @emptyList d b _ => exact ⟨'[' :: b, ']', rfl, rfl⟩
  | @list d u vs _ => exact ⟨'[' :: u, ']', rfl, rfl⟩
  | @emptyObject d b _ => exact ⟨'{' :: b, '}', rfl, rfl⟩
  | @object d u members _ => exact ⟨'{' :: u, '}', rfl, rfl⟩

/-- Space after an item belongs to it. -/
theorem SpellsItem.blank {d : Nat} {w : List Char} {v : Value} {c : Char} (h : SpellsItem d w v)
    (hc : Machine.isSpace c = true) : SpellsItem d (w ++ [c]) v := by
  cases h with
  | padded hb hw hb' => rw [List.append_assoc]; exact .padded hb hw (hb'.snoc hc)

theorem SpellsItems.blank {d : Nat} {w : List Char} {vs : List Value} {c : Char} (h : SpellsItems d w vs)
    (hc : Machine.isSpace c = true) : SpellsItems d (w ++ [c]) vs := by
  cases h with
  | one h => exact .one (h.blank hc)
  | more h h' => rw [List.append_assoc, List.cons_append]; exact .more h (h'.blank hc)

theorem SpellsMember.blank {d : Nat} {w : List Char} {key : String} {v : Value} {c : Char}
    (h : SpellsMember d w key v) (hc : Machine.isSpace c = true) : SpellsMember d (w ++ [c]) key v := by
  cases h with
  | keyed hb hk hb' hw => rw [List.append_assoc, List.cons_append]; exact .keyed hb hk hb' (hw.blank hc)

theorem SpellsMembers.blank {d : Nat} {w : List Char} {members : List (String × Value)} {c : Char}
    (h : SpellsMembers d w members) (hc : Machine.isSpace c = true) : SpellsMembers d (w ++ [c]) members := by
  cases h with
  | one h => exact .one (h.blank hc)
  | more h h' => rw [List.append_assoc, List.cons_append]; exact .more h (h'.blank hc)

end Pinpoint.Json
