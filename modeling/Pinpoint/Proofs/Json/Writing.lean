import Mathlib.Data.List.Basic
import Pinpoint.Json.Writer
import Pinpoint.Proofs.Json.Naturals
import Pinpoint.Proofs.Json.Nesting
import Pinpoint.Proofs.Json.Streams
import Pinpoint.Proofs.Json.Tree

/-!
# Written values

What is written is read as it was meant. A text in quotes spells the text (`spellsText_writeText`), the digits of a
number spell the number (`spellsNatural_toDigits`), and a value whose numbers are whole is written as a text of its own
tree, on one line (`Value.Within.writesCompact`) and in the pretty layout (`Value.Within.writesPretty`). On one line no
character is a control character (`Value.Within.noControls`).
-/

namespace Pinpoint.Json

/-- No character comes before the space. -/
def NoControls (w : List Char) : Prop := ∀ c ∈ w, ¬c < ' '

-- Named, since a search may find the instance that goes through all characters.
instance : DecidablePred NoControls := List.decidableBAll fun c => ¬c < ' '

theorem NoControls.append {u w : List Char} (hu : NoControls u) (hw : NoControls w) : NoControls (u ++ w) := by
  intro c hc
  rcases List.mem_append.mp hc with hc | hc
  · exact hu c hc
  · exact hw c hc

theorem noControls_cons {c : Char} {w : List Char} : NoControls (c :: w) ↔ ¬c < ' ' ∧ NoControls w :=
  List.forall_mem_cons

theorem noControls_singleton {c : Char} : NoControls [c] ↔ ¬c < ' ' := List.forall_mem_singleton

theorem NoControls.flatMap {xs : List α} {f : α → List Char} (h : ∀ x ∈ xs, NoControls (f x)) :
    NoControls (xs.flatMap f) := by
  intro c hc
  obtain ⟨x, hx, hc⟩ := List.mem_flatMap.mp hc
  exact h x hx c hc

/-! ## Texts -/

theorem hexDigit?_digitChar {n : Nat} (h : n < 16) : Text.hexDigit? n.digitChar = some n := by
  have hall : ∀ k : Fin 16, Text.hexDigit? k.val.digitChar = some k.val := by decide
  exact hall ⟨n, h⟩

theorem not_digitChar_lt {n : Nat} (h : n < 16) : ¬n.digitChar < ' ' := by
  have hall : ∀ k : Fin 16, ¬k.val.digitChar < ' ' := by decide
  exact hall ⟨n, h⟩

/-- A control character is its own unit of two digits. -/
theorem spellsChar_unit {c : Char} (h : c < ' ') :
    SpellsChar ['\\', 'u', '0', '0', (c.toNat / 16).digitChar, (c.toNat % 16).digitChar] c := by
  have hc : c.toNat < 32 := h
  have hunit : unit? ['0', '0', (c.toNat / 16).digitChar, (c.toNat % 16).digitChar] = some c.toNat := by
    have hzero : Text.hexDigit? '0' = some 0 := by decide
    have hhigh : Text.hexDigit? (c.toNat / 16).digitChar = some (c.toNat / 16) := hexDigit?_digitChar (by omega)
    have hlow : Text.hexDigit? (c.toNat % 16).digitChar = some (c.toNat % 16) := hexDigit?_digitChar (by omega)
    simp only [unit?, List.foldl_cons, List.foldl_nil, Option.bind_some, hzero, hhigh, hlow, Option.map_some]
    congr 1
    omega
  have hhigh : Machine.isHigh c.toNat = false := by unfold Machine.isHigh; simp; omega
  have hlow : Machine.isLow c.toNat = false := by unfold Machine.isLow; simp; omega
  have hspells := SpellsChar.unit rfl hunit hhigh hlow
  rwa [Char.ofNat_toNat] at hspells

/-- A character is written as a backslash and its letter, as a unit if it is another control character, or as it is. -/
theorem writeChar_cases (c : Char) :
    (∃ e, Machine.escaped? e = some c ∧ ¬e < ' ' ∧ writeChar c = ['\\', e]) ∨
    (c < ' ' ∧ writeChar c = ['\\', 'u', '0', '0', (c.toNat / 16).digitChar, (c.toNat % 16).digitChar]) ∨
    (c ≠ '"' ∧ c ≠ '\\' ∧ ¬c < ' ' ∧ writeChar c = [c]) := by
  unfold writeChar
  split
  · next h => exact .inl ⟨'"', by rw [h]; rfl, by decide, rfl⟩
  split
  · next h => exact .inl ⟨'\\', by rw [h]; rfl, by decide, rfl⟩
  split
  · next h => exact .inl ⟨'b', by rw [h]; rfl, by decide, rfl⟩
  split
  · next h => exact .inl ⟨'f', by rw [h]; rfl, by decide, rfl⟩
  split
  · next h => exact .inl ⟨'n', by rw [h]; rfl, by decide, rfl⟩
  split
  · next h => exact .inl ⟨'r', by rw [h]; rfl, by decide, rfl⟩
  split
  · next h => exact .inl ⟨'t', by rw [h]; rfl, by decide, rfl⟩
  split
  · next h => exact .inr (.inl ⟨h, rfl⟩)
  · next hquote hslash _ _ _ _ _ hcontrol => exact .inr (.inr ⟨hquote, hslash, hcontrol, rfl⟩)

/-- Each character is read back, escaped or not. -/
theorem spellsChar_writeChar (c : Char) : SpellsChar (writeChar c) c := by
  obtain ⟨e, hescaped, -, hwrite⟩ | ⟨hcontrol, hwrite⟩ | ⟨hquote, hslash, hcontrol, hwrite⟩ := writeChar_cases c
  · rw [hwrite]
    exact .letter hescaped
  · rw [hwrite]
    exact spellsChar_unit hcontrol
  · rw [hwrite]
    exact .plain hquote hslash hcontrol

theorem noControls_writeChar (c : Char) : NoControls (writeChar c) := by
  obtain ⟨e, -, he, hwrite⟩ | ⟨hcontrol, hwrite⟩ | ⟨-, -, hcontrol, hwrite⟩ := writeChar_cases c
  · rw [hwrite]
    exact noControls_cons.mpr ⟨by decide, noControls_singleton.mpr he⟩
  · have hc : c.toNat < 32 := hcontrol
    have hhigh : ¬(c.toNat / 16).digitChar < ' ' := not_digitChar_lt (by omega)
    have hlow : ¬(c.toNat % 16).digitChar < ' ' := not_digitChar_lt (by omega)
    have hfront : NoControls ['\\', 'u', '0', '0'] := by decide
    rw [hwrite]
    exact hfront.append (noControls_cons.mpr ⟨hhigh, noControls_singleton.mpr hlow⟩)
  · rw [hwrite]
    exact noControls_singleton.mpr hcontrol

/-- **A text in its quotes is read back**, whatever its characters are. -/
theorem spellsText_writeText (s : String) : SpellsText (writeText s) s := by
  suffices hchars : SpellsChars (s.toList.flatMap writeChar) s.toList by
    have hquoted := SpellsText.quoted hchars
    rwa [String.ofList_toList] at hquoted
  generalize s.toList = cs
  -- The grammar takes characters on at the end.
  induction cs using List.reverseRecOn with
  | nil => exact .nil
  | append_singleton cs c ih =>
    rw [List.flatMap_append, List.flatMap_singleton]
    exact .snoc ih (spellsChar_writeChar c)

theorem noControls_writeText (s : String) : NoControls (writeText s) := by
  have hquote : NoControls ['"'] := by decide
  have hchars : NoControls (s.toList.flatMap writeChar) := NoControls.flatMap fun c _ => noControls_writeChar c
  exact (hquote.append hchars).append hquote

/-! ## Numbers -/

theorem digit?_digitChar {n : Nat} (h : n < 10) : Numeral.digit? n.digitChar = some n := by
  have hall : ∀ k : Fin 10, Numeral.digit? k.val.digitChar = some k.val := by decide
  exact hall ⟨n, h⟩

/-- The decimal digits of a number spell it. -/
theorem spellsNatural_toDigits (n : Nat) : SpellsNatural (Nat.toDigits 10 n) n := by
  induction n using Nat.strongRecOn with
  | _ n ih =>
    by_cases hn : n < 10
    · rw [Nat.toDigits_of_lt_base hn]
      exact .digit (digit?_digitChar hn)
    · have hfront : SpellsNatural (Nat.toDigits 10 (n / 10)) (n / 10) := ih (n / 10) (by omega)
      have hlast : Numeral.digit? (n % 10).digitChar = some (n % 10) := digit?_digitChar (by omega)
      have hspells := hfront.snoc (by omega) hlast
      rw [Nat.toDigits_of_base_le (by decide) (by omega)]
      rwa [show n / 10 * 10 + n % 10 = n by omega] at hspells

theorem noControls_toDigits (n : Nat) : NoControls (Nat.toDigits 10 n) := by
  intro c hc
  have hdigit : c.isDigit = true := Nat.isDigit_of_mem_toDigits (by decide) (by decide) hc
  simp only [Char.isDigit, Bool.and_eq_true, decide_eq_true_eq] at hdigit
  have hge : 48 ≤ c.toNat := hdigit.1
  intro hlt
  have hless : c.toNat < 32 := hlt
  omega

/-- A number that is read as it is written. -/
def Number.IsNatural (x : Number) : Prop := ∃ n, x = .natural n

namespace Value

/-! ## Values -/

mutual

/-- The tree that is written for a value: the same members in the same order. -/
def tree : Value → Tree
  | .null => .leaf .null
  | .bool b => .leaf (.bool b)
  | .number x => .leaf (.number x)
  | .text s => .leaf (.text s)
  | .list vs => .list (trees vs)
  | .object ms => .object (memberTrees ms)
termination_by structural v => v

def trees : List Value → List Tree
  | [] => []
  | v :: vs => v.tree :: trees vs
termination_by structural vs => vs

def memberTrees : List (String × Value) → List (String × Tree)
  | [] => []
  | (key, v) :: ms => (key, v.tree) :: memberTrees ms
termination_by structural ms => ms

end

theorem trees_eq (vs : List Value) : trees vs = vs.map tree := by
  induction vs with
  | nil => rfl
  | cons v vs ih => rw [trees, ih, List.map_cons]

theorem memberTrees_eq (ms : List (String × Value)) : memberTrees ms = ms.map fun m => (m.1, m.2.tree) := by
  induction ms with
  | nil => rfl
  | cons m ms ih => rw [memberTrees, ih, List.map_cons]

/-! ## Layouts -/

section Layouts

variable {d level : Nat} {b b' gap : List Char} {write : Value → List Char}

/-- Items that are written one by one, each after the same space, with commas in between. -/
theorem writesItems_map (hb : Blank b) (hb' : Blank b') {v : Value} {vs : List Value}
    (h : ∀ u ∈ v :: vs, Writes d (write u) u.tree) :
    WritesItems d (b ++ write v ++ (vs.flatMap fun u => ',' :: (b ++ write u)) ++ b') ((v :: vs).map tree) := by
  induction vs using List.reverseRecOn generalizing b' with
  | nil =>
    rw [List.flatMap_nil, List.append_nil]
    exact .one hb (h v List.mem_cons_self) hb'
  | append_singleton vs u ih =>
    have hfront := ih Blank.nil fun u' hu' => h u' (List.mem_append_left [u] hu')
    have hlast := h u (List.mem_append_right (v :: vs) (List.mem_singleton_self u))
    have hwrites := hfront.more hb hlast hb'
    simpa only [List.flatMap_append, List.flatMap_singleton, List.map_cons, List.map_append, List.map_nil,
      List.cons_append, List.append_assoc, List.append_nil, List.nil_append] using hwrites

/-- The same for members, with space between the colon and the value. -/
theorem writesMembers_map (hb : Blank b) (hb' : Blank b') (hgap : Blank gap) {m : String × Value}
    {ms : List (String × Value)} (h : ∀ m' ∈ m :: ms, Writes d (write m'.2) m'.2.tree) :
    WritesMembers d (b ++ writeText m.1 ++ ':' :: (gap ++ write m.2) ++
        (ms.flatMap fun m' => ',' :: (b ++ writeText m'.1 ++ ':' :: (gap ++ write m'.2))) ++ b')
      ((m :: ms).map fun m' => (m'.1, m'.2.tree)) := by
  induction ms using List.reverseRecOn generalizing b' with
  | nil =>
    have hone := WritesMembers.one hb (spellsText_writeText m.1) .nil hgap (h m List.mem_cons_self) hb'
    simpa only [List.flatMap_nil, List.map_cons, List.map_nil, List.append_assoc, List.append_nil, List.nil_append,
      List.cons_append] using hone
  | append_singleton ms m' ih =>
    have hfront := ih Blank.nil fun k hk => h k (List.mem_append_left [m'] hk)
    have hlast := h m' (List.mem_append_right (m :: ms) (List.mem_singleton_self m'))
    have hwrites := hfront.more hb (spellsText_writeText m'.1) .nil hgap hlast hb'
    simpa only [List.flatMap_append, List.flatMap_singleton, List.map_cons, List.map_append, List.map_nil,
      List.cons_append, List.append_assoc, List.append_nil, List.nil_append] using hwrites

theorem compactItems_eq (vs : List Value) :
    compactItems vs = (vs.flatMap fun u => ',' :: u.writeCompact) ++ [']'] := by
  induction vs with
  | nil => rfl
  | cons v vs ih => rw [compactItems, ih, List.flatMap_cons, List.append_assoc, List.cons_append]

theorem compactMembers_eq (ms : List (String × Value)) :
    compactMembers ms = (ms.flatMap fun m => ',' :: (writeText m.1 ++ ':' :: m.2.writeCompact)) ++ ['}'] := by
  induction ms with
  | nil => rfl
  | cons m ms ih => simp only [compactMembers, ih, List.flatMap_cons, List.append_assoc, List.cons_append]

theorem prettyItems_eq (level : Nat) (vs : List Value) :
    prettyItems level vs =
      (vs.flatMap fun u => ',' :: (newLine (level + 1) ++ u.writePretty (level + 1))) ++ (newLine level ++ [']']) := by
  induction vs with
  | nil => rfl
  | cons v vs ih => simp only [prettyItems, ih, List.flatMap_cons, List.append_assoc, List.cons_append]

theorem prettyMembers_eq (level : Nat) (ms : List (String × Value)) :
    prettyMembers level ms =
      (ms.flatMap fun m =>
        ',' :: (newLine (level + 1) ++ writeText m.1 ++ ':' :: ' ' :: m.2.writePretty (level + 1))) ++
        (newLine level ++ ['}']) := by
  induction ms with
  | nil => rfl
  | cons m ms ih => simp only [prettyMembers, ih, List.flatMap_cons, List.append_assoc, List.cons_append]

theorem blank_newLine (level : Nat) : Blank (newLine level) := by
  refine blank_cons.mpr ⟨rfl, fun c hc => ?_⟩
  rw [List.eq_of_mem_replicate hc]
  rfl

end Layouts

variable {d : Nat} {v : Value}

/-- A number that is read as it is written. -/
theorem writes_natural {x : Number} (h : x.IsNatural) : Writes d x.write (.leaf (.number x)) := by
  obtain ⟨n, rfl⟩ := h
  exact .leaf (spells_natural_iff.mpr (spellsNatural_toDigits n.toNat))

/-- **On one line a value is written as its tree.** -/
theorem Within.writesCompact (h : v.Within Number.IsNatural d) : Writes d v.writeCompact v.tree := by
  induction h with
  | null => exact .leaf (.word .null)
  | @bool d b => cases b with
    | true => exact .leaf (.word .yes)
    | false => exact .leaf (.word .no)
  | number hx => exact writes_natural hx
  | text => exact .leaf (.text (spellsText_writeText _))
  | @list d vs _ ih =>
    rw [tree, trees_eq]
    cases vs with
    | nil => exact .emptyList .nil
    | cons v vs =>
      have hitems := writesItems_map Blank.nil Blank.nil ih
      simp only [List.nil_append, List.append_nil] at hitems
      have hlist := Writes.list hitems
      rw [writeCompact, compactItems_eq]
      simpa only [List.cons_append, List.append_assoc] using hlist
  | @object d ms _ ih =>
    rw [tree, memberTrees_eq]
    cases ms with
    | nil => exact .emptyObject .nil
    | cons m ms =>
      have hmembers := writesMembers_map Blank.nil Blank.nil Blank.nil ih
      simp only [List.nil_append, List.append_nil] at hmembers
      have hobject := Writes.object hmembers
      rw [writeCompact, compactMembers_eq]
      simpa only [List.cons_append, List.append_assoc] using hobject

/-- So a value whose members are in the order of their keys is the value of its text. -/
theorem Within.spells_compact (h : v.Within Number.IsNatural d) (hv : v.tree.value = v) :
    Spells d v.compact.toList v := by
  have hspells := h.writesCompact.spells
  rw [hv] at hspells
  rwa [compact, String.toList_ofList]

/-- **In the pretty layout a value is written as its tree**, at every level of indentation. -/
theorem Within.writesPretty (h : v.Within Number.IsNatural d) (level : Nat) :
    Writes d (v.writePretty level) v.tree := by
  induction h generalizing level with
  | null => exact .leaf (.word .null)
  | @bool d b => cases b with
    | true => exact .leaf (.word .yes)
    | false => exact .leaf (.word .no)
  | number hx => exact writes_natural hx
  | text => exact .leaf (.text (spellsText_writeText _))
  | @list d vs _ ih =>
    rw [tree, trees_eq]
    cases vs with
    | nil => exact .emptyList .nil
    | cons v vs =>
      have hitems := writesItems_map (blank_newLine (level + 1)) (blank_newLine level) fun u hu =>
        ih u hu (level + 1)
      have hlist := Writes.list hitems
      rw [writePretty, prettyItems_eq]
      simpa only [List.cons_append, List.append_assoc] using hlist
  | @object d ms _ ih =>
    have hgap : Blank [' '] := blank_cons.mpr ⟨rfl, .nil⟩
    rw [tree, memberTrees_eq]
    cases ms with
    | nil => exact .emptyObject .nil
    | cons m ms =>
      have hmembers := writesMembers_map (blank_newLine (level + 1)) (blank_newLine level) hgap fun m' hm' =>
        ih m' hm' (level + 1)
      have hobject := Writes.object hmembers
      rw [writePretty, prettyMembers_eq]
      simpa only [List.cons_append, List.append_assoc, List.nil_append] using hobject

/-- A value on one line has no control characters. -/
theorem Within.noControls (h : v.Within Number.IsNatural d) : NoControls v.writeCompact := by
  induction h with
  | null => decide
  | @bool d b => cases b <;> decide
  | number hx =>
    obtain ⟨n, rfl⟩ := hx
    exact noControls_toDigits n.toNat
  | text => exact noControls_writeText _
  | @list d vs _ ih =>
    cases vs with
    | nil => decide
    | cons v vs =>
      have hrest : NoControls (compactItems vs) := by
        rw [compactItems_eq]
        refine (NoControls.flatMap fun u hu => ?_).append (show NoControls [']'] by decide)
        exact (show NoControls [','] by decide).append (ih u (List.mem_cons_of_mem v hu))
      exact (show NoControls ['['] by decide).append ((ih v List.mem_cons_self).append hrest)
  | @object d ms _ ih =>
    cases ms with
    | nil => decide
    | cons m ms =>
      have hmember : ∀ m' ∈ m :: ms, NoControls (writeText m'.1 ++ ':' :: m'.2.writeCompact) := by
        intro m' hm'
        exact (noControls_writeText m'.1).append (noControls_cons.mpr ⟨by decide, ih m' hm'⟩)
      have hrest : NoControls (compactMembers ms) := by
        rw [compactMembers_eq]
        refine (NoControls.flatMap fun m' hm' => ?_).append (show NoControls ['}'] by decide)
        exact (show NoControls [','] by decide).append (hmember m' (List.mem_cons_of_mem m hm'))
      exact (show NoControls ['{'] by decide).append ((hmember m List.mem_cons_self).append hrest)

end Value

/-! ## Streams -/

/-- Space before a stream belongs to it. -/
theorem SpellsStream.space {b w : List Char} {vs : List Value} (h : SpellsStream w vs) (hb : Blank b) :
    SpellsStream (b ++ w) vs := by
  cases h with
  | done hb' => exact .done (blank_append.mpr ⟨hb, hb'⟩)
  | value hb' hw hloose hrest =>
    rw [← List.append_assoc, ← List.append_assoc]
    exact .value (blank_append.mpr ⟨hb, hb'⟩) hw hloose hrest

/-- A value that ends with its own last character may stand before a stream. -/
theorem SpellsStream.prepend {u w : List Char} {v : Value} {vs : List Value} (h : SpellsStream w vs)
    (hu : Spells maxNesting u v) (hloose : v.isLoose = false) : SpellsStream (u ++ w) (v :: vs) := by
  have hstream := SpellsStream.value Blank.nil hu (fun hl => absurd hl (by rw [hloose]; decide)) h
  rwa [List.nil_append] at hstream

end Pinpoint.Json
