import Mathlib.Data.List.Induction
import Pinpoint.Proofs.Json.Grammar
import Pinpoint.Proofs.Text.Bytes

/-!
# The grammar derives what the machine reads

`Holds m w` says what the machine `m` stands for: the text `w`, read since the last value of the stream, is a derivation
of the grammar cut off where the machine has come to. The stack is the part of it that lies in open containers
(`Opened`), the mode the rest (`ListPart`, `ObjectPart`, `Quoting`). One character keeps this (`Holds.feed`), so that a
value which the machine hands out is derived from the text read for it.
-/

namespace Pinpoint.Json

open Machine

/-! ## Cut derivations -/

/-- A list read so far. -/
inductive ListPart (d : Nat) : List Value → Filling → List Char → Prop
  | opened {b : List Char} : Blank b → ListPart d [] .opened ('[' :: b)
  | filled {w : List Char} {items : List Value} : SpellsItems d w items.reverse → ListPart d items .filled ('[' :: w)
  | comma {w b : List Char} {items : List Value} : SpellsItems d w items.reverse → Blank b →
      ListPart d items .comma ('[' :: w ++ ',' :: b)

/-- An object read so far. -/
inductive ObjectPart (d : Nat) : List (String × Value) → Filling → List Char → Prop
  | opened {b : List Char} : Blank b → ObjectPart d [] .opened ('{' :: b)
  | filled {w : List Char} {members : List (String × Value)} : SpellsMembers d w members →
      ObjectPart d members .filled ('{' :: w)
  | comma {w b : List Char} {members : List (String × Value)} : SpellsMembers d w members → Blank b →
      ObjectPart d members .comma ('{' :: w ++ ',' :: b)

/-- The open containers of a stack, up to where the innermost waits for a value that nests at most `d` deep. -/
inductive Opened : Nat → List Frame → List Char → Prop
  | nil {b : List Char} : Blank b → Opened maxNesting [] b
  | list {d : Nat} {stack : List Frame} {w u : List Char} {items : List Value} {f : Filling} : Opened (d + 1) stack w →
      ListPart d items f u → f ≠ .filled → Opened d (.list items :: stack) (w ++ u)
  | object {d : Nat} {stack : List Frame} {w u k b b' : List Char} {members : List (String × Value)} {f : Filling}
      {key : String} : Opened (d + 1) stack w → ObjectPart d members f u → f ≠ .filled → SpellsText k key → Blank b →
      Blank b' → Opened d (.object members key :: stack) (w ++ (u ++ k ++ b ++ ':' :: b'))

/-- The unit that a second unit of a pair follows, if it is one. -/
inductive Lead : Option Nat → List Char → Prop
  | none : Lead none []
  | high {ds : List Char} {high : Nat} : ds.length = 4 → unit? ds = some high → isHigh high = true →
      Lead (some high) ('\\' :: 'u' :: ds)

/-- A text read so far, its characters last first. -/
inductive Quoting : List Char → Escape → List Char → Prop
  | none {w done : List Char} : SpellsChars w done.reverse → Quoting done .none ('"' :: w)
  | backslash {w done : List Char} : SpellsChars w done.reverse → Quoting done .backslash ('"' :: w ++ ['\\'])
  | unit {w done l ds : List Char} {high : Option Nat} : SpellsChars w done.reverse → Lead high l →
      Text.bytes ds < 4 → Quoting done (.unit high (unit? ds) (Text.bytes ds)) ('"' :: w ++ (l ++ '\\' :: 'u' :: ds))
  | pair {w done l : List Char} {high : Nat} : SpellsChars w done.reverse → Lead (some high) l →
      Quoting done (.pair high) ('"' :: w ++ l)
  | pairBackslash {w done l : List Char} {high : Nat} : SpellsChars w done.reverse → Lead (some high) l →
      Quoting done (.pairBackslash high) ('"' :: w ++ (l ++ ['\\']))

/-- The text since the last value of the stream brings the machine to where it is. -/
inductive Holds : Machine → List Char → Prop
  | between {b : List Char} : Blank b → Holds ⟨[], .between⟩ b
  | start {d : Nat} {stack : List Frame} {w : List Char} {members : List (String × Value)} {key : String} :
      Opened d (.object members key :: stack) w → Holds ⟨.object members key :: stack, .start⟩ w
  | list {d : Nat} {stack : List Frame} {w u : List Char} {items : List Value} {f : Filling} : Opened (d + 1) stack w →
      ListPart d items f u → Holds ⟨stack, .list items f⟩ (w ++ u)
  | object {d : Nat} {stack : List Frame} {w u : List Char} {members : List (String × Value)} {f : Filling} :
      Opened (d + 1) stack w → ObjectPart d members f u → Holds ⟨stack, .object members f⟩ (w ++ u)
  | colon {d : Nat} {stack : List Frame} {w u k b : List Char} {members : List (String × Value)} {f : Filling}
      {key : String} : Opened (d + 1) stack w → ObjectPart d members f u → f ≠ .filled → SpellsText k key → Blank b →
      Holds ⟨stack, .colon members key⟩ (w ++ (u ++ k ++ b))
  | text {d : Nat} {stack : List Frame} {w u done : List Char} {escape : Escape} : Opened d stack w →
      Quoting done escape u → Holds ⟨stack, .text .value done escape⟩ (w ++ u)
  | key {d : Nat} {stack : List Frame} {w u k done : List Char} {members : List (String × Value)} {f : Filling}
      {escape : Escape} : Opened (d + 1) stack w → ObjectPart d members f u → f ≠ .filled → Quoting done escape k →
      Holds ⟨stack, .text (.key members) done escape⟩ (w ++ (u ++ k))
  | number {d : Nat} {stack : List Frame} {w u : List Char} {n : Numeral} : Opened d stack w → SpellsNumeral u n →
      Holds ⟨stack, .number n⟩ (w ++ u)
  | word {d : Nat} {stack : List Frame} {w u left : List Char} {v : Value} : Opened d stack w →
      SpellsWord (u ++ left) v → left ≠ [] → Holds ⟨stack, .word left v⟩ (w ++ u)
  | ended {b u : List Char} {v : Value} : Blank b → SpellsWord u v → Holds ⟨[], .ended v⟩ (b ++ u)

/-- Space and then the value. -/
inductive Complete : List Char → Value → Prop
  | value {b x : List Char} {v : Value} : Blank b → Spells maxNesting x v → Complete (b ++ x) v

/-- A complete value that is not loose ends with its own last character. -/
theorem Complete.last {w : List Char} {c : Char} {v : Value} (h : Complete (w ++ [c]) v) (hv : v.isLoose = false) :
    isSpace c = false := by
  generalize hwc : w ++ [c] = u at h
  cases h with
  | value hb hx =>
    obtain ⟨y, e, rfl, he⟩ := hx.last hv
    rw [← List.append_assoc] at hwc
    rw [(List.append_singleton_inj.mp hwc).2]
    exact he

/-- What the text stands for after a step. -/
def Step.Holds (w : List Char) : Step → Prop
  | .next m => Json.Holds m w
  | .value v => v.isLoose = false ∧ Complete w v
  | .fail _ => True

/-! ## Values filled in -/

/-- The containers of the stack and those still allowed are all there may be. -/
theorem Opened.room {d : Nat} {stack : List Frame} {w : List Char} (h : Opened d stack w) :
    d + stack.length = maxNesting := by
  induction h with
  | nil _ => rfl
  | list _ _ _ ih => rw [List.length_cons]; omega
  | object _ _ _ _ _ _ ih => rw [List.length_cons]; omega

/-- Space after the colon of a member belongs to the object. -/
theorem Opened.blank {d : Nat} {stack : List Frame} {w : List Char} {members : List (String × Value)} {key : String}
    {c : Char} (h : Opened d (.object members key :: stack) w) (hc : isSpace c = true) :
    Opened d (.object members key :: stack) (w ++ [c]) := by
  cases h with
  | object ho hp hf hk hb hb' => simpa using Opened.object ho hp hf hk hb (hb'.snoc hc)

/-- An item makes the list longer. -/
theorem ListPart.item {d : Nat} {items : List Value} {f : Filling} {u x : List Char} {v : Value}
    (h : ListPart d items f u) (hf : f ≠ .filled) (hx : Spells d x v) :
    ListPart d (v :: items) .filled (u ++ x) := by
  cases h with
  | @opened b hb => exact .filled (by simpa using SpellsItems.one (.padded hb hx .nil))
  | filled _ => exact absurd rfl hf
  | @comma w b _ hw hb =>
    have hitems : SpellsItems d (w ++ ',' :: (b ++ x ++ [])) (v :: items).reverse := by
      rw [List.reverse_cons]; exact .more hw (.padded hb hx .nil)
    simpa using ListPart.filled hitems

/-- A member makes the object larger. -/
theorem ObjectPart.member {d : Nat} {members : List (String × Value)} {f : Filling} {u k b b' x : List Char}
    {key : String} {v : Value} (h : ObjectPart d members f u) (hf : f ≠ .filled) (hk : SpellsText k key)
    (hb : Blank b) (hb' : Blank b') (hx : Spells d x v) :
    ObjectPart d (Value.insert key v members) .filled (u ++ k ++ b ++ ':' :: b' ++ x) := by
  have hm : ∀ {a : List Char}, Blank a → SpellsMember d (a ++ k ++ b ++ ':' :: (b' ++ x ++ [])) key v :=
    fun ha => .keyed ha hk hb (.padded hb' hx .nil)
  cases h with
  | opened ha => simpa using ObjectPart.filled (.one (hm ha))
  | filled _ => exact absurd rfl hf
  | comma hw ha => simpa using ObjectPart.filled (.more hw (hm ha))

/-- A value in the innermost container. -/
theorem fill_holds {d : Nat} {frame : Frame} {stack : List Frame} {w x : List Char} {v : Value}
    (h : Opened d (frame :: stack) w) (hx : Spells d x v) : Holds (fill frame stack v) (w ++ x) := by
  cases h with
  | list ho hp hf => rw [List.append_assoc]; exact .list ho (hp.item hf hx)
  | object ho hp hf hk hb hb' => rw [List.append_assoc]; exact .object ho (hp.member hf hk hb hb' hx)

/-- A value that ends with its last character. -/
theorem close_holds {d : Nat} {stack : List Frame} {w x : List Char} {v : Value} (h : Opened d stack w)
    (hx : Spells d x v) (hv : v.isLoose = false) : (close stack v).Holds (w ++ x) := by
  cases stack with
  | nil =>
    cases h with
    | nil hb => exact ⟨hv, .value hb hx⟩
  | cons frame stack => exact fill_holds h hx

theorem closeWord_holds {d : Nat} {stack : List Frame} {w x : List Char} {v : Value} (h : Opened d stack w)
    (hx : SpellsWord x v) : (closeWord stack v).Holds (w ++ x) := by
  cases stack with
  | nil =>
    cases h with
    | nil hb => exact Holds.ended hb hx
  | cons frame stack => exact fill_holds h (.word hx)

/-! ## Single steps -/

theorem nest_holds {d : Nat} {stack : List Frame} {w : List Char} (h : Opened d stack w) :
    (nest stack (.list [] .opened)).Holds (w ++ ['[']) ∧ (nest stack (.object [] .opened)).Holds (w ++ ['{']) := by
  have hroom := h.room
  unfold nest
  split
  · obtain ⟨d, rfl⟩ : ∃ d', d = d' + 1 := ⟨d - 1, by omega⟩
    exact ⟨.list h (.opened .nil), .object h (.opened .nil)⟩
  · exact ⟨trivial, trivial⟩

/-- The first character of a value. -/
theorem begin_holds {d : Nat} {stack : List Frame} {w : List Char} (h : Opened d stack w) (c : Char) :
    (begin stack c).Holds (w ++ [c]) := by
  unfold begin
  split
  · exact .text h (.none .nil)
  · exact (nest_holds h).1
  · exact (nest_holds h).2
  · exact .word h .null (List.cons_ne_nil _ _)
  · exact .word h .yes (List.cons_ne_nil _ _)
  · exact .word h .no (List.cons_ne_nil _ _)
  · split
    · next n hn => exact .number h (.start hn)
    · trivial

theorem list_holds {d : Nat} {stack : List Frame} {w u : List Char} {items : List Value} {f : Filling}
    (h : Opened (d + 1) stack w) (hp : ListPart d items f u) (c : Char) :
    (list stack items f c).Holds (w ++ u ++ [c]) := by
  by_cases hc : isSpace c = true
  · simp only [list, hc, if_true]
    refine List.append_assoc w u [c] ▸ .list h ?_
    cases hp with
    | opened hb => exact .opened (hb.snoc hc)
    | filled hw => exact .filled (hw.blank hc)
    | comma hw hb => simpa using ListPart.comma hw (hb.snoc hc)
  · simp only [list, hc, if_false, Bool.false_eq_true]
    split
    · cases hp with
      | opened hb => exact List.append_assoc w _ [']'] ▸ close_holds h (.emptyList hb) rfl
    · exact begin_holds (.list h hp (by decide)) c
    · trivial
    · exact begin_holds (.list h hp (by decide)) c
    · cases hp with
      | filled hw => exact List.append_assoc w _ [']'] ▸ close_holds h (.list hw) rfl
    · cases hp with
      | filled hw => exact List.append_assoc w _ [','] ▸ .list h (.comma hw .nil)
    · trivial

theorem object_holds {d : Nat} {stack : List Frame} {w u : List Char} {members : List (String × Value)} {f : Filling}
    (h : Opened (d + 1) stack w) (hp : ObjectPart d members f u) (c : Char) :
    (object stack members f c).Holds (w ++ u ++ [c]) := by
  by_cases hc : isSpace c = true
  · simp only [object, hc, if_true]
    refine List.append_assoc w u [c] ▸ .object h ?_
    cases hp with
    | opened hb => exact .opened (hb.snoc hc)
    | filled hw => exact .filled (hw.blank hc)
    | comma hw hb => simpa using ObjectPart.comma hw (hb.snoc hc)
  · simp only [object, hc, if_false, Bool.false_eq_true]
    split
    · cases hp with
      | opened hb => exact List.append_assoc w _ ['}'] ▸ close_holds h (.emptyObject hb) rfl
    · exact List.append_assoc w _ ['"'] ▸ .key h hp (by decide) (.none .nil)
    · trivial
    · trivial
    · exact List.append_assoc w _ ['"'] ▸ .key h hp (by decide) (.none .nil)
    · trivial
    · cases hp with
      | filled hw => exact List.append_assoc w _ ['}'] ▸ close_holds h (.object hw) rfl
    · cases hp with
      | filled hw => exact List.append_assoc w _ [','] ▸ .object h (.comma hw .nil)
    · trivial

/-! ### Texts -/

/-- The closing quote of a text. -/
def endText (stack : List Frame) (s : String) : Role → Step
  | .key members => .next ⟨stack, .colon members s⟩
  | .value => close stack (.text s)

/-- A step inside a text: a fault, more of the text, or its end. -/
inductive TextStep (stack : List Frame) (role : Role) (k : List Char) : Step → Prop
  | fail (t : Trouble) : TextStep stack role k (.fail t)
  | more {done : List Char} {escape : Escape} : Quoting done escape k →
      TextStep stack role k (.next ⟨stack, .text role done escape⟩)
  | closed {s : String} : SpellsText k s → TextStep stack role k (endText stack s role)

theorem unit?_snoc (ds : List Char) (c : Char) :
    unit? (ds ++ [c]) = (unit? ds).bind fun n => (Text.hexDigit? c).map (n * 16 + ·) := by
  simp [unit?]

/-- Digits of a unit take a byte each. -/
theorem bytes_of_unit? {ds : List Char} : ∀ {n : Nat}, unit? ds = some n → Text.bytes ds = ds.length := by
  induction ds using List.reverseRecOn with
  | nil => intro _ _; rfl
  | append_singleton ds c ih =>
    intro n h
    simp only [unit?_snoc, Option.bind_eq_some_iff, Option.map_eq_some_iff] at h
    obtain ⟨m, hm, d, hd, -⟩ := h
    rw [Text.bytes_append, ih hm, Text.bytes_cons, Text.utf8Size_of_hexDigit? hd]
    simp

/-- A unit that is complete is a character, half of a pair, or a fault. -/
theorem unit_holds {done w l ds : List Char} {high : Option Nat} {n : Nat} (hw : SpellsChars w done.reverse)
    (hl : Lead high l) (hlen : ds.length = 4) (hn : unit? ds = some n) (stack : List Frame) (role : Role) :
    TextStep stack role ('"' :: w ++ (l ++ '\\' :: 'u' :: ds)) (unit stack role done high n) := by
  cases hl with
  | none =>
    by_cases hlow : isLow n = true
    · simp only [unit, hlow, if_true]; exact .fail _
    by_cases hhigh : isHigh n = true
    · simp only [unit, hlow, hhigh, if_true, if_false, Bool.false_eq_true]
      exact .more (.pair hw (.high hlen hn hhigh))
    · simp only [unit, hlow, hhigh, if_false, Bool.false_eq_true]
      have hchar : SpellsChar ('\\' :: 'u' :: ds) (Char.ofNat n) :=
        .unit hlen hn (by simpa using hhigh) (by simpa using hlow)
      have hchars := SpellsChars.snoc hw hchar
      exact .more (.none (by rwa [List.reverse_cons]))
  | @high ds' high hlen' hn' hhigh =>
    by_cases hlow : isLow n = true
    · simp only [unit, hlow, if_true]
      have hchars := SpellsChars.snoc hw (.pair hlen' hn' hhigh hlen hn hlow)
      exact .more (.none (by rwa [List.reverse_cons]))
    · simp only [unit, hlow, if_false, Bool.false_eq_true]; exact .fail _

theorem text_holds {done k : List Char} {escape : Escape} (h : Quoting done escape k) (stack : List Frame)
    (role : Role) (c : Char) : TextStep stack role (k ++ [c]) (text stack role done escape c) := by
  cases h with
  | @none w _ hw =>
    simp only [text]
    split
    · next hc =>
      subst hc
      have hs : SpellsText ('"' :: w ++ ['"']) (String.ofList done.reverse) := .quoted hw
      cases role <;> exact .closed hs
    split
    · next hc => subst hc; exact .more (.backslash hw)
    split
    · exact .fail _
    · next hq hb hs =>
      have hchars := SpellsChars.snoc hw (.plain hq hb hs)
      exact .more (.none (by rwa [List.reverse_cons]))
  | @backslash w _ hw =>
    simp only [text]
    split
    · next hc =>
      subst hc
      have hq : Quoting done (.unit none (some 0) 0) ('"' :: w ++ ([] ++ '\\' :: 'u' :: [])) :=
        @Quoting.unit w done [] [] none hw .none (by decide)
      exact .more (by simpa using hq)
    split
    · next e he =>
      have hchars := SpellsChars.snoc hw (.letter he)
      have hq : Quoting (e :: done) .none ('"' :: (w ++ ['\\', c])) := .none (by rwa [List.reverse_cons])
      exact .more (by simpa using hq)
    · exact .fail _
  | @unit w _ l ds high hw hl hlt =>
    have hcode : ((unit? ds).bind fun n => (Text.hexDigit? c).map (n * 16 + ·)) = unit? (ds ++ [c]) :=
      (unit?_snoc ds c).symm
    have hbytes : Text.bytes ds + c.utf8Size = Text.bytes (ds ++ [c]) := by simp
    have hk : '"' :: w ++ (l ++ '\\' :: 'u' :: ds) ++ [c] = '"' :: w ++ (l ++ '\\' :: 'u' :: (ds ++ [c])) := by simp
    simp only [text, hcode, hbytes, hk]
    split
    · next hlt' => exact .more (.unit hw hl hlt')
    split
    · next hge n hn =>
      have hlen := bytes_of_unit? hn
      have hlen' : (ds ++ [c]).length = 4 := by
        have hsize := hn
        simp only [unit?_snoc, Option.bind_eq_some_iff, Option.map_eq_some_iff] at hsize
        obtain ⟨_, _, _, hd, -⟩ := hsize
        have := Text.utf8Size_of_hexDigit? hd
        omega
      exact unit_holds hw hl hlen' hn stack role
    · exact .fail _
  | @pair w _ l high hw hl =>
    simp only [text]
    split
    · next hc => subst hc; exact .more (by simpa using Quoting.pairBackslash hw hl)
    · exact .fail _
  | @pairBackslash w _ l high hw hl =>
    simp only [text]
    split
    · next hc =>
      subst hc
      have hq : Quoting done (.unit (some high) (some 0) 0) ('"' :: w ++ (l ++ '\\' :: 'u' :: [])) :=
        @Quoting.unit w done l [] (some high) hw hl (by decide)
      exact .more (by simpa using hq)
    · exact .fail _

/-! ## Every step -/

theorem Numeral.powerDigit_ne_ended (n : Numeral) (below : Bool) (size d : Nat) :
    n.powerDigit below size d ≠ .ended := by
  unfold Numeral.powerDigit
  split
  · nofun
  · split <;> nofun

/-- A numeral that ends before a character is complete. -/
theorem Numeral.isComplete_of_ended {n : Numeral} {c : Char} (h : n.step c = .ended) : n.isComplete = true := by
  unfold Numeral.step at h
  unfold Numeral.isComplete
  cases hp : n.part with
  | sign => cases hd : Numeral.digit? c <;> rw [hp, hd] at h <;> cases h
  | point => cases hd : Numeral.digit? c <;> rw [hp, hd] at h <;> cases h
  | mark =>
    cases hd : Numeral.digit? c <;> rw [hp, hd] at h
    · simp only at h
      split at h
      · cases h
      · split at h <;> cases h
    · exact absurd h (n.powerDigit_ne_ended _ _ _)
  | markSign below =>
    cases hd : Numeral.digit? c <;> rw [hp, hd] at h
    · cases h
    · exact absurd h (n.powerDigit_ne_ended _ _ _)
  | _ => rfl

/-- What a character after the text `w` does: it belongs to what is being read, or it follows a value. -/
inductive Machine.Fed.Holds (w : List Char) (c : Char) : Fed → Prop
  | inside {s : Step} : s.Holds (w ++ [c]) → Fed.Holds w c ⟨none, s⟩
  | after {v : Value} : v.isLoose = true → isDelimiter c = true → Complete w v → (idle.step c).Holds [c] →
      Fed.Holds w c ⟨some v, idle.step c⟩

theorem holds_idle : Holds idle [] := .between .nil

theorem between_holds {b : List Char} (hb : Blank b) (c : Char) : (idle.step c).Holds (b ++ [c]) := by
  simp only [idle, step]
  split
  · next hc => exact .between (hb.snoc hc)
  · exact begin_holds (.nil hb) c

theorem endBefore_holds {w : List Char} {v : Value} (hv : v.isLoose = true) (h : Complete w v) (c : Char) :
    (endBefore v c).Holds w c := by
  unfold endBefore
  split
  · next hc => exact .after hv hc h (between_holds .nil c)
  · exact .inside trivial

/-- A character after a value in the innermost container. -/
theorem fill_step_holds {d : Nat} {frame : Frame} {stack : List Frame} {w x : List Char} {v : Value}
    (h : Opened d (frame :: stack) w) (hx : Spells d x v) (c : Char) :
    ((fill frame stack v).step c).Holds (w ++ x ++ [c]) := by
  have hfill := fill_holds h hx
  generalize w ++ x = y at hfill ⊢
  cases frame with
  | list items =>
    simp only [fill] at hfill ⊢
    cases hfill with
    | list ho hp => exact list_holds ho hp c
  | object members key =>
    simp only [fill] at hfill ⊢
    cases hfill with
    | object ho hp => exact object_holds ho hp c

theorem number_holds {d : Nat} {stack : List Frame} {w u : List Char} {n : Numeral} (h : Opened d stack w)
    (hu : SpellsNumeral u n) (c : Char) : (feed ⟨stack, .number n⟩ c).Holds (w ++ u) c := by
  simp only [feed]
  split
  · next n' hn => exact .inside (List.append_assoc w u [c] ▸ .number h (.more hu hn))
  · exact .inside trivial
  · next hn =>
    split
    · exact .inside trivial
    · next x hx =>
      cases h with
      | nil hb => exact endBefore_holds rfl (.value hb (.number hu (Numeral.isComplete_of_ended hn) hx)) c
    · next x frame stack hx =>
      exact .inside (fill_step_holds h (.number hu (Numeral.isComplete_of_ended hn) hx) c)

theorem colon_holds {d : Nat} {stack : List Frame} {w u k b : List Char} {members : List (String × Value)}
    {f : Filling} {key : String} (h : Opened (d + 1) stack w) (hp : ObjectPart d members f u) (hf : f ≠ .filled)
    (hk : SpellsText k key) (hb : Blank b) (c : Char) :
    (step ⟨stack, .colon members key⟩ c).Holds (w ++ (u ++ k ++ b) ++ [c]) := by
  simp only [step]
  split
  · next hc => simpa [Step.Holds] using Holds.colon h hp hf hk (hb.snoc hc)
  split
  · next hc => subst hc; simpa [Step.Holds] using Holds.start (Opened.object h hp hf hk hb .nil)
  · trivial

theorem word_holds {d : Nat} {stack : List Frame} {w u left : List Char} {v : Value} (h : Opened d stack w)
    (hu : SpellsWord (u ++ left) v) (hleft : left ≠ []) (c : Char) :
    (step ⟨stack, .word left v⟩ c).Holds (w ++ u ++ [c]) := by
  match left with
  | [] => exact absurd rfl hleft
  | [l] =>
    simp only [step]
    split
    · next hc => subst hc; exact List.append_assoc w u [c] ▸ closeWord_holds h hu
    · trivial
  | l :: l' :: left =>
    simp only [step]
    split
    · next hc =>
      subst hc
      exact List.append_assoc w u [c] ▸ Holds.word h (by simpa using hu) (List.cons_ne_nil l' left)
    · trivial

/-- **Soundness of a step**: what the machine stands for grows by the character that it reads. -/
theorem Holds.feed {m : Machine} {w : List Char} (h : Holds m w) (c : Char) : (m.feed c).Holds w c := by
  cases h with
  | between hb => exact .inside (between_holds hb c)
  | @start d stack w members key ho =>
    refine .inside ?_
    simp only [step]
    split
    · next hc => exact .start (ho.blank hc)
    · exact begin_holds ho c
  | list ho hp => exact .inside (list_holds ho hp c)
  | object ho hp => exact .inside (object_holds ho hp c)
  | colon ho hp hf hk hb => exact .inside (colon_holds ho hp hf hk hb c)
  | @text d stack w u done escape ho hq =>
    refine .inside ?_
    have hstep := text_holds hq stack .value c
    simp only [step]
    generalize Machine.text stack .value done escape c = s at hstep ⊢
    cases hstep with
    | fail t => trivial
    | more hq' => exact List.append_assoc w u [c] ▸ Holds.text ho hq'
    | closed hs => exact List.append_assoc w u [c] ▸ close_holds ho (.text hs) rfl
  | @key d stack w u k done members f escape ho hp hf hq =>
    refine .inside ?_
    have hstep := text_holds hq stack (.key members) c
    simp only [step]
    generalize Machine.text stack (.key members) done escape c = s at hstep ⊢
    cases hstep with
    | fail t => trivial
    | more hq' => simpa [Step.Holds] using Holds.key ho hp hf hq'
    | closed hs => simpa [Step.Holds, endText] using Holds.colon ho hp hf hs .nil
  | number ho hu => exact number_holds ho hu c
  | word ho hu hleft => exact .inside (word_holds ho hu hleft c)
  | ended hb hu => exact endBefore_holds hu.isLoose (.value hb (.word hu)) c

/-- What the end of the text after `w` shows: that the machine is between two values, a last value, or that something is
missing. -/
inductive EndHolds (m : Machine) (w : List Char) : Option Value × Option Cause → Prop
  | between : m = idle → Blank w → EndHolds m w (none, none)
  | value {v : Value} : v.isLoose = true → Complete w v → EndHolds m w (some v, none)
  | missing (cause : Cause) : EndHolds m w (none, some cause)

theorem Holds.finish {m : Machine} {w : List Char} (h : Holds m w) : EndHolds m w m.finish := by
  cases h with
  | between hb => exact .between rfl hb
  | start _ => exact .missing _
  | list _ hp => cases hp <;> exact .missing _
  | object _ hp => cases hp <;> exact .missing _
  | colon _ _ _ _ _ => exact .missing _
  | text _ _ => exact .missing _
  | key _ _ _ _ => exact .missing _
  | @number d stack w u n ho hu =>
    simp only [Machine.finish]
    split
    · next hn =>
      split
      · exact .missing _
      · next x hx =>
        cases ho with
        | nil hb => exact .value rfl (.value hb (.number hu hn hx))
      · next frame _ _ => cases frame <;> exact .missing _
    · exact .missing _
  | word _ _ _ => exact .missing _
  | ended hb hu => exact .value hu.isLoose (.value hb (.word hu))

end Pinpoint.Json
