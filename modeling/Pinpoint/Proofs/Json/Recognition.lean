import Pinpoint.Proofs.Json.Grammar
import Pinpoint.Proofs.Text.Bytes

/-!
# The machine reads what the grammar derives

`Moves m w m'` says that the machine `m` reads `w` in silence and becomes `m'`, and `Yields m w stack v` that with the
end of `w` the value `v` is complete on the stack. Every value of the grammar is yielded by a machine that is ready for
a value (`Spells.yields`), as long as the containers of the stack and those of the value stay within `maxNesting`. A
number is complete before the machine knows it, so after an item the machine only does with the next bracket, comma or
space what it would do with the item filled in (`Resembles`).
-/

namespace Pinpoint.Json

open Machine

/-! ## Silent moves -/

/-- The machine reads the text without a value of the stream, and becomes another. -/
inductive Moves : Machine → List Char → Machine → Prop
  | refl (m : Machine) : Moves m [] m
  | cons {m m' m'' : Machine} {c : Char} {w : List Char} : m.feed c = ⟨none, .next m'⟩ → Moves m' w m'' →
      Moves m (c :: w) m''

theorem Moves.trans {m m' m'' : Machine} {u w : List Char} (h : Moves m u m') (h' : Moves m' w m'') :
    Moves m (u ++ w) m'' := by
  induction h with
  | refl m => exact h'
  | cons hc _ ih => exact .cons hc (ih h')

theorem Moves.single {m m' : Machine} {c : Char} (h : m.feed c = ⟨none, .next m'⟩) : Moves m [c] m' :=
  .cons h (.refl m')

/-- A machine that stays as it is on space moves over any of it. -/
theorem moves_blank {m : Machine} (hm : ∀ c, isSpace c = true → m.feed c = ⟨none, .next m⟩) :
    ∀ {b : List Char}, Blank b → Moves m b m
  | [], _ => .refl m
  | _ :: _, h => .cons (hm _ (blank_cons.mp h).1) (moves_blank hm (blank_cons.mp h).2)

/-! ## Texts -/

section Texts

variable {stack : List Frame} {role : Role} {done : List Char}

theorem feed_text (escape : Escape) (c : Char) :
    feed ⟨stack, .text role done escape⟩ c = ⟨none, text stack role done escape c⟩ := rfl

theorem moves_backslash : Moves ⟨stack, .text role done .none⟩ ['\\'] ⟨stack, .text role done .backslash⟩ :=
  .single (by simp [feed_text, text])

/-- The digits of a unit up to the last one, which completes it. -/
theorem moves_unit (high : Option Nat) {ds : List Char} {n : Nat} (hl : ds.length = 4) (hn : unit? ds = some n) :
    ∃ u d m, ds = u ++ [d] ∧ Moves ⟨stack, .text role done (.unit high (some 0) 0)⟩ u m ∧
      m.feed d = ⟨none, unit stack role done high n⟩ := by
  match ds, hl with
  | [c₁, c₂, c₃, c₄], _ =>
    simp only [unit?, List.foldl_cons, List.foldl_nil, Option.bind_some, Option.bind_eq_some_iff,
      Option.map_eq_some_iff] at hn
    obtain ⟨k₃, ⟨k₂, ⟨k₁, ⟨n₁, h₁, e₁⟩, n₂, h₂, e₂⟩, n₃, h₃, e₃⟩, n₄, h₄, e₄⟩ := hn
    have hs₁ := Text.utf8Size_of_hexDigit? h₁
    have hs₂ := Text.utf8Size_of_hexDigit? h₂
    have hs₃ := Text.utf8Size_of_hexDigit? h₃
    have hs₄ := Text.utf8Size_of_hexDigit? h₄
    have hm₁ : Moves ⟨stack, .text role done (.unit high (some 0) 0)⟩ [c₁]
        ⟨stack, .text role done (.unit high (some k₁) 1)⟩ := .single (by simp [feed_text, text, h₁, hs₁, ← e₁])
    have hm₂ : Moves ⟨stack, .text role done (.unit high (some k₁) 1)⟩ [c₂]
        ⟨stack, .text role done (.unit high (some k₂) 2)⟩ := .single (by simp [feed_text, text, h₂, hs₂, ← e₂])
    have hm₃ : Moves ⟨stack, .text role done (.unit high (some k₂) 2)⟩ [c₃]
        ⟨stack, .text role done (.unit high (some k₃) 3)⟩ := .single (by simp [feed_text, text, h₃, hs₃, ← e₃])
    exact ⟨[c₁, c₂, c₃], c₄, _, rfl, (hm₁.trans hm₂).trans hm₃, by simp [feed_text, text, h₄, hs₄, e₄]⟩

/-- The backslash and the letter that begin a unit. -/
theorem moves_unit_start : Moves ⟨stack, .text role done .none⟩ ['\\', 'u']
    ⟨stack, .text role done (.unit none (some 0) 0)⟩ :=
  .trans moves_backslash (.single (by simp [feed_text, text]))

/-- The machine reads a character of a text. -/
theorem SpellsChar.moves {x : List Char} {c : Char} (h : SpellsChar x c) :
    Moves ⟨stack, .text role done .none⟩ x ⟨stack, .text role (c :: done) .none⟩ := by
  cases h with
  | plain hq hb hc => exact .single (by simp [feed_text, text, hq, hb, hc])
  | @letter e _ he =>
    have hu : e ≠ 'u' := by rintro rfl; cases he
    exact .trans moves_backslash (.single (by simp [feed_text, text, he, hu]))
  | @unit ds n hl hn hh hlow =>
    obtain ⟨u, d, m, rfl, hm, hd⟩ := @moves_unit stack role done none _ _ hl hn
    have hend : m.feed d = ⟨none, .next ⟨stack, .text role (Char.ofNat n :: done) .none⟩⟩ := by
      rw [hd]; simp [Machine.unit, hlow, hh]
    exact .trans moves_unit_start (hm.trans (.single hend))
  | @pair ds es high low hl hn hh hl' hn' hlow =>
    obtain ⟨u, d, m, rfl, hm, hd⟩ := @moves_unit stack role done none _ _ hl hn
    obtain ⟨u', d', m', rfl, hm', hd'⟩ := @moves_unit stack role done (some high) _ _ hl' hn'
    have hhl : isLow high = false := by
      simp only [isHigh, isLow, decide_eq_true_eq, decide_eq_false_iff_not] at hh ⊢; omega
    have hfirst : m.feed d = ⟨none, .next ⟨stack, .text role done (.pair high)⟩⟩ := by
      rw [hd]; simp [Machine.unit, hhl, hh]
    have hbetween : Moves ⟨stack, .text role done (.pair high)⟩ ['\\', 'u']
        ⟨stack, .text role done (.unit (some high) (some 0) 0)⟩ :=
      @Moves.trans _ ⟨stack, .text role done (.pairBackslash high)⟩ _ _ _ (.single (by simp [feed_text, text]))
        (.single (by simp [feed_text, text]))
    have hsecond : m'.feed d' = ⟨none, .next ⟨stack, .text role (ofPair high low :: done) .none⟩⟩ := by
      rw [hd']; simp [Machine.unit, hlow]
    exact .trans (.trans moves_unit_start (hm.trans (.single hfirst)))
      (.trans hbetween (hm'.trans (.single hsecond)))

/-- The machine reads the characters of a text. -/
theorem SpellsChars.moves {w cs : List Char} (h : SpellsChars w cs) :
    Moves ⟨stack, .text role done .none⟩ w ⟨stack, .text role (cs.reverse ++ done) .none⟩ := by
  induction h with
  | nil => exact .refl _
  | @snoc w x cs c _ hx ih =>
    rw [List.reverse_append, List.reverse_singleton, List.singleton_append]
    exact ih.trans hx.moves

end Texts

/-! ## The ends of numbers -/

theorem isDelimiter_of_isSpace {c : Char} (h : isSpace c = true) : isDelimiter c = true := by
  simp [isDelimiter, h]

/-- A complete numeral ends before a delimiter. -/
theorem Numeral.step_delimiter {n : Numeral} (hn : n.isComplete = true) {c : Char} (hc : isDelimiter c = true) :
    n.step c = .ended := by
  have hd : Numeral.digit? c = none ∧ c ≠ '.' ∧ c ≠ 'e' ∧ c ≠ 'E' := by
    simp only [isDelimiter, isSpace, decide_eq_true_eq] at hc
    rcases hc with (rfl | rfl | rfl | rfl) | rfl | rfl | rfl | rfl | rfl | rfl | rfl <;> decide
  obtain ⟨hd, h₁, h₂, h₃⟩ := hd
  unfold Numeral.step
  rw [hd]
  unfold Numeral.isComplete at hn
  cases hp : n.part <;> simp_all [Numeral.afterDigits]

/-- On delimiters the machines do the same. -/
def Resembles (m m' : Machine) : Prop := ∀ c, isDelimiter c = true → m.feed c = m'.feed c

/-- Space keeps the resemblance to a machine that stays as it is on space. -/
theorem Resembles.moves_blank {m m' : Machine} (h : Resembles m m')
    (hm' : ∀ c, isSpace c = true → m'.feed c = ⟨none, .next m'⟩) {b : List Char} (hb : Blank b) :
    ∃ m'', Moves m b m'' ∧ Resembles m'' m' := by
  cases b with
  | nil => exact ⟨m, .refl m, h⟩
  | cons c b =>
    obtain ⟨hc, hb⟩ := blank_cons.mp hb
    have hfeed : m.feed c = ⟨none, .next m'⟩ := by rw [h c (isDelimiter_of_isSpace hc), hm' c hc]
    exact ⟨m', .cons hfeed (Json.moves_blank hm' hb), fun _ _ => rfl⟩

/-- A machine in a container does with any character what the container does with it. -/
theorem feed_fill (frame : Frame) (stack : List Frame) (v : Value) (c : Char) :
    (fill frame stack v).feed c = ⟨none, (fill frame stack v).step c⟩ := by
  cases frame <;> rfl

theorem feed_fill_blank (frame : Frame) (stack : List Frame) (v : Value) (c : Char) (hc : isSpace c = true) :
    (fill frame stack v).feed c = ⟨none, .next (fill frame stack v)⟩ := by
  cases frame <;> simp [fill, feed, step, list, object, hc]

/-- A complete number does what the container with the number in it does. -/
theorem resembles_number {n : Numeral} {x : Number} (hn : n.isComplete = true) (hx : n.value? = some x)
    (frame : Frame) (stack : List Frame) :
    Resembles ⟨frame :: stack, .number n⟩ (fill frame stack (.number x)) := by
  intro c hc
  rw [feed_fill]
  simp [feed, Numeral.step_delimiter hn hc, hx]

/-! ## Values -/

/-- The machine takes the next character that is no space for the first one of a value. -/
structure Ready (stack : List Frame) (m : Machine) : Prop where
  blank : ∀ c, isSpace c = true → m.feed c = ⟨none, .next m⟩
  begins : ∀ c, isSpace c = false → c ≠ ']' → m.feed c = ⟨none, begin stack c⟩

theorem ready_idle : Ready [] idle where
  blank c hc := by simp [idle, feed, step, hc]
  begins c hc _ := by simp [idle, feed, step, hc]

theorem ready_start (stack : List Frame) : Ready stack ⟨stack, .start⟩ where
  blank c hc := by simp [feed, step, hc]
  begins c hc _ := by simp [feed, step, hc]

theorem ready_list (stack : List Frame) (items : List Value) {f : Filling} (hf : f ≠ .filled) :
    Ready (.list items :: stack) ⟨stack, .list items f⟩ where
  blank c hc := by simp [feed, step, list, hc]
  begins c hc hc' := by cases f <;> simp_all [feed, step, list]

/-- With the end of the text the value is complete on the stack: by its own last character, or, if it is a number, by
whatever delimiter follows. -/
inductive Yields : Machine → List Char → List Frame → Value → Prop
  | closed {m m' : Machine} {w : List Char} {c : Char} {stack : List Frame} {v : Value} : v.isLoose = false →
      Moves m w m' → m'.feed c = ⟨none, close stack v⟩ → Yields m (w ++ [c]) stack v
  | word {m m' : Machine} {w : List Char} {c : Char} {stack : List Frame} {v : Value} : v.isLoose = true →
      Moves m w m' → m'.feed c = ⟨none, closeWord stack v⟩ → Yields m (w ++ [c]) stack v
  | number {m : Machine} {w : List Char} {n : Numeral} {stack : List Frame} {x : Number} : n.isComplete = true →
      n.value? = some x → Moves m w ⟨stack, .number n⟩ → Yields m w stack (.number x)

theorem Moves.yields {m m' : Machine} {u w : List Char} {stack : List Frame} {v : Value} (h : Moves m u m')
    (hy : Yields m' w stack v) : Yields m (u ++ w) stack v := by
  cases hy with
  | closed hv hm hc => rw [← List.append_assoc]; exact .closed hv (h.trans hm) hc
  | word hv hm hc => rw [← List.append_assoc]; exact .word hv (h.trans hm) hc
  | number hn hx hm => exact .number hn hx (h.trans hm)

/-- A value inside a container is filled in. -/
theorem Yields.moves {m : Machine} {w : List Char} {frame : Frame} {stack : List Frame} {v : Value}
    (h : Yields m w (frame :: stack) v) : ∃ m', Moves m w m' ∧ Resembles m' (fill frame stack v) := by
  cases h with
  | closed _ hm hc => exact ⟨_, hm.trans (.single hc), fun _ _ => rfl⟩
  | word _ hm hc => exact ⟨_, hm.trans (.single hc), fun _ _ => rfl⟩
  | number hn hx hm => exact ⟨_, hm, resembles_number hn hx frame stack⟩

/-! ### The first characters of values -/

/-- A character that begins a numeral is no space and no bracket, and begins a number. -/
theorem begin_numeral {c : Char} {n : Numeral} (h : Numeral.start? c = some n) (stack : List Frame) :
    isSpace c = false ∧ c ≠ ']' ∧ begin stack c = .next ⟨stack, .number n⟩ := by
  have hnone : [' ', '\n', '\t', '\r', ']', '"', '[', '{', 'n', 't', 'f'].all
      (fun c' => (Numeral.start? c').isNone) = true := rfl
  have hc : ∀ c' ∈ [' ', '\n', '\t', '\r', ']', '"', '[', '{', 'n', 't', 'f'], c ≠ c' := by
    rintro c' hc' rfl
    have hstart := List.all_eq_true.mp hnone c hc'
    rw [h] at hstart
    cases hstart
  simp only [List.mem_cons, List.not_mem_nil, or_false, forall_eq_or_imp, forall_eq] at hc
  obtain ⟨h₁, h₂, h₃, h₄, h₅, h₆, h₇, h₈, h₉, h₁₀, h₁₁⟩ := hc
  refine ⟨by simp [isSpace, h₁, h₂, h₃, h₄], h₅, ?_⟩
  unfold begin
  split <;> simp_all

/-- The machine reads a numeral. -/
theorem SpellsNumeral.moves {w : List Char} {n : Numeral} (h : SpellsNumeral w n) {stack : List Frame} {m : Machine}
    (hm : Ready stack m) : Moves m w ⟨stack, .number n⟩ := by
  induction h with
  | start hc =>
    obtain ⟨hs, hb, hbegin⟩ := begin_numeral hc stack
    exact .single (by rw [hm.begins _ hs hb, hbegin])
  | more _ hstep ih => exact ih.trans (.single (by simp [feed, hstep]))

theorem SpellsWord.yields {w : List Char} {v : Value} (h : SpellsWord w v) {stack : List Frame} {m : Machine}
    (hm : Ready stack m) : Yields m w stack v := by
  have hletter : ∀ (c l : Char) (left : List Char), Moves ⟨stack, .word (c :: l :: left) v⟩ [c]
      ⟨stack, .word (l :: left) v⟩ := fun c l left => .single (by simp [feed, step])
  have hlast : ∀ c, feed ⟨stack, .word [c] v⟩ c = ⟨none, closeWord stack v⟩ := fun c => by simp [feed, step]
  cases h with
  | null =>
    have hfirst : Moves m ['n'] ⟨stack, .word ['u', 'l', 'l'] .null⟩ :=
      .single (by rw [hm.begins _ (by decide) (by decide)]; rfl)
    exact .word (w := ['n', 'u', 'l']) rfl (hfirst.trans ((hletter _ _ _).trans (hletter _ _ _))) (hlast _)
  | yes =>
    have hfirst : Moves m ['t'] ⟨stack, .word ['r', 'u', 'e'] (.bool true)⟩ :=
      .single (by rw [hm.begins _ (by decide) (by decide)]; rfl)
    exact .word (w := ['t', 'r', 'u']) rfl (hfirst.trans ((hletter _ _ _).trans (hletter _ _ _))) (hlast _)
  | no =>
    have hfirst : Moves m ['f'] ⟨stack, .word ['a', 'l', 's', 'e'] (.bool false)⟩ :=
      .single (by rw [hm.begins _ (by decide) (by decide)]; rfl)
    exact .word (w := ['f', 'a', 'l', 's']) rfl
      (hfirst.trans ((hletter _ _ _).trans ((hletter _ _ _).trans (hletter _ _ _)))) (hlast _)

theorem SpellsText.yields {w : List Char} {s : String} (h : SpellsText w s) {stack : List Frame} {m : Machine}
    (hm : Ready stack m) : Yields m w stack (.text s) := by
  cases h with
  | @quoted w cs hw =>
    have hfirst : Moves m ['"'] ⟨stack, .text .value [] .none⟩ :=
      .single (by rw [hm.begins _ (by decide) (by decide)]; rfl)
    exact .closed rfl (hfirst.trans hw.moves) (by simp [feed_text, text])

/-- The machine reads a key up to its colon. -/
theorem SpellsText.moves {k : List Char} {key : String} (h : SpellsText k key) {stack : List Frame}
    {members : List (String × Value)} {f : Filling} (hf : f ≠ .filled) :
    Moves ⟨stack, .object members f⟩ k ⟨stack, .colon members key⟩ := by
  cases h with
  | @quoted w cs hw =>
    have hfirst : Moves ⟨stack, .object members f⟩ ['"'] ⟨stack, .text (.key members) [] .none⟩ :=
      .single (by cases f <;> simp_all [feed, step, object, isSpace])
    exact hfirst.trans (hw.moves.trans (.single (by simp [feed_text, text])))

/-- A container opens where there is room for it. -/
theorem Ready.opens {stack : List Frame} {m : Machine} (hm : Ready stack m) (hroom : stack.length < maxNesting) :
    Moves m ['['] ⟨stack, .list [] .opened⟩ ∧ Moves m ['{'] ⟨stack, .object [] .opened⟩ :=
  ⟨.single (by rw [hm.begins _ (by decide) (by decide)]; simp [begin, nest, hroom]),
    .single (by rw [hm.begins _ (by decide) (by decide)]; simp [begin, nest, hroom])⟩

theorem feed_list_blank (stack : List Frame) (items : List Value) (f : Filling) (c : Char) (hc : isSpace c = true) :
    feed ⟨stack, .list items f⟩ c = ⟨none, .next ⟨stack, .list items f⟩⟩ := by
  simp [feed, step, list, hc]

theorem feed_object_blank (stack : List Frame) (members : List (String × Value)) (f : Filling) (c : Char)
    (hc : isSpace c = true) : feed ⟨stack, .object members f⟩ c = ⟨none, .next ⟨stack, .object members f⟩⟩ := by
  simp [feed, step, object, hc]

theorem feed_colon_blank (stack : List Frame) (members : List (String × Value)) (key : String) (c : Char)
    (hc : isSpace c = true) : feed ⟨stack, .colon members key⟩ c = ⟨none, .next ⟨stack, .colon members key⟩⟩ := by
  simp [feed, step, hc]

/-! ### Values, items and members -/

mutual

/-- **Completeness**: a value of the grammar is yielded by every machine that is ready for it. -/
theorem Spells.yields {d : Nat} {w : List Char} {v : Value} : Spells d w v → ∀ {stack : List Frame} {m : Machine},
    Ready stack m → d + stack.length ≤ maxNesting → Yields m w stack v
  | .word h, _, _, hm, _ => h.yields hm
  | .number h hn hx, _, _, hm, _ => .number hn hx (h.moves hm)
  | .text h, _, _, hm, _ => h.yields hm
  | .emptyList hb, stack, m, hm, hd => by
    obtain ⟨hopen, _⟩ := hm.opens (by omega)
    have hblank := moves_blank (feed_list_blank stack [] .opened) hb
    exact .closed rfl (hopen.trans hblank) rfl
  | .list h, stack, m, hm, hd => by
    obtain ⟨hopen, _⟩ := hm.opens (by omega)
    obtain ⟨m', hmoves, hlike⟩ := @SpellsItems.moves _ _ _ h stack (by omega)
    exact .closed rfl (hopen.trans hmoves) (by rw [hlike _ (by decide)]; simp [feed, step, list, isSpace])
  | .emptyObject hb, stack, m, hm, hd => by
    obtain ⟨_, hopen⟩ := hm.opens (by omega)
    have hblank := moves_blank (feed_object_blank stack [] .opened) hb
    exact .closed rfl (hopen.trans hblank) rfl
  | .object h, stack, m, hm, hd => by
    obtain ⟨_, hopen⟩ := hm.opens (by omega)
    obtain ⟨m', hmoves, hlike⟩ := @SpellsMembers.moves _ _ _ h stack (by omega)
    exact .closed rfl (hopen.trans hmoves) (by rw [hlike _ (by decide)]; simp [feed, step, object, isSpace])

/-- An item inside a container is filled in. -/
theorem SpellsItem.moves {d : Nat} {w : List Char} {v : Value} : SpellsItem d w v →
    ∀ {frame : Frame} {stack : List Frame} {m : Machine}, Ready (frame :: stack) m →
      d + (stack.length + 1) ≤ maxNesting → ∃ m', Moves m w m' ∧ Resembles m' (fill frame stack v)
  | .padded hb h hb', frame, stack, m, hm, hd => by
    have hy := h.yields hm (by simpa using hd)
    obtain ⟨m₁, hm₁, hlike⟩ := hy.moves
    obtain ⟨m₂, hm₂, hlike⟩ := hlike.moves_blank (feed_fill_blank frame stack _) hb'
    exact ⟨m₂, ((moves_blank hm.blank hb).trans hm₁).trans hm₂, hlike⟩

/-- The items of a list are read from its opening bracket on. -/
theorem SpellsItems.moves {d : Nat} {w : List Char} {vs : List Value} : SpellsItems d w vs →
    ∀ {stack : List Frame}, d + (stack.length + 1) ≤ maxNesting →
      ∃ m', Moves ⟨stack, .list [] .opened⟩ w m' ∧ Resembles m' ⟨stack, .list vs.reverse .filled⟩
  | .one h, stack, hd => h.moves (ready_list stack [] (f := .opened) nofun) hd
  | @SpellsItems.more _ _ _ vs _ h h', stack, hd => by
    obtain ⟨m₁, hm₁, hlike⟩ := h.moves hd
    have hcomma : m₁.feed ',' = ⟨none, .next ⟨stack, .list vs.reverse .comma⟩⟩ := by
      rw [hlike _ (by decide)]; simp [feed, step, list, isSpace]
    obtain ⟨m₂, hm₂, hlike⟩ := h'.moves (ready_list stack vs.reverse (f := .comma) nofun) hd
    refine ⟨m₂, hm₁.trans (.cons hcomma hm₂), ?_⟩
    simpa [fill] using hlike

/-- A member is read where an object waits for its key. -/
theorem SpellsMember.moves {d : Nat} {w : List Char} {key : String} {v : Value} : SpellsMember d w key v →
    ∀ {stack : List Frame} {members : List (String × Value)} {f : Filling}, f ≠ .filled →
      d + (stack.length + 1) ≤ maxNesting → ∃ m', Moves ⟨stack, .object members f⟩ w m' ∧
        Resembles m' ⟨stack, .object (Value.insert key v members) .filled⟩
  | @SpellsMember.keyed _ _ _ _ _ key _ hb hk hb' h, stack, members, f, hf, hd => by
    have hkey := (moves_blank (feed_object_blank stack members f) hb).trans (hk.moves hf)
    have hspace := moves_blank (feed_colon_blank stack members key) hb'
    have hcolon : feed ⟨stack, .colon members key⟩ ':' = ⟨none, .next ⟨.object members key :: stack, .start⟩⟩ := by
      simp [feed, step, isSpace]
    obtain ⟨m', hm', hlike⟩ := h.moves (ready_start (.object members key :: stack)) hd
    exact ⟨m', (hkey.trans hspace).trans (.cons hcolon hm'), hlike⟩

/-- The members of an object are read from its opening brace on. -/
theorem SpellsMembers.moves {d : Nat} {w : List Char} {members : List (String × Value)} : SpellsMembers d w members →
    ∀ {stack : List Frame}, d + (stack.length + 1) ≤ maxNesting →
      ∃ m', Moves ⟨stack, .object [] .opened⟩ w m' ∧ Resembles m' ⟨stack, .object members .filled⟩
  | .one h, stack, hd => h.moves (f := .opened) nofun hd
  | @SpellsMembers.more _ _ _ members _ _ h h', stack, hd => by
    obtain ⟨m₁, hm₁, hlike⟩ := h.moves hd
    have hcomma : m₁.feed ',' = ⟨none, .next ⟨stack, .object members .comma⟩⟩ := by
      rw [hlike _ (by decide)]; simp [feed, step, object, isSpace]
    obtain ⟨m₂, hm₂, hlike⟩ := h'.moves (f := .comma) nofun hd
    exact ⟨m₂, hm₁.trans (.cons hcomma hm₂), hlike⟩

end

end Pinpoint.Json
