import Pinpoint.Proofs.Json.Nesting
import Pinpoint.Proofs.Json.Streams

/-!
# Texts that are nested too deep

The grammar derives texts of any depth, but the machine has no more than `maxNesting` places on its stack. A text of the
grammar fits into the room that is left there, or the machine comes to an opening bracket without room and fails
(`Spells.fits_or_overflows`): nothing that is wrong but the depth keeps the machine from reading it to its end
(`Stream.ofText_of_spells`).
-/

namespace Pinpoint.Json

open Machine

/-- The machine moves over the text up to a bracket for which it has no room. -/
inductive Overflows : Machine → List Char → Prop
  | fails {m m' : Machine} {u w : List Char} {c : Char} : Moves m u m' →
      m'.feed c = ⟨none, .fail (.here .nestedTooDeep)⟩ → Overflows m (u ++ c :: w)

/-- What comes later does not matter. -/
theorem Overflows.append {m : Machine} {u : List Char} (h : Overflows m u) (w : List Char) : Overflows m (u ++ w) := by
  cases h with
  | fails hm hc =>
    rw [List.append_assoc]
    exact .fails hm hc

theorem Moves.overflows {m m' : Machine} {u w : List Char} (h : Moves m u m') (ho : Overflows m' w) :
    Overflows m (u ++ w) := by
  cases ho with
  | fails hm hc =>
    rw [← List.append_assoc]
    exact .fails (h.trans hm) hc

/-- On a full stack no container opens. -/
theorem Ready.overflows {stack : List Frame} {m : Machine} (hm : Ready stack m) (hfull : stack.length = maxNesting)
    (w : List Char) : Overflows m ('[' :: w) ∧ Overflows m ('{' :: w) := by
  have hroom : ¬stack.length < maxNesting := by omega
  have hlist : m.feed '[' = ⟨none, .fail (.here .nestedTooDeep)⟩ := by
    rw [hm.begins _ (by decide) (by decide)]
    simp [begin, nest, hroom]
  have hobject : m.feed '{' = ⟨none, .fail (.here .nestedTooDeep)⟩ := by
    rw [hm.begins _ (by decide) (by decide)]
    simp [begin, nest, hroom]
  exact ⟨.fails (.refl m) hlist, .fails (.refl m) hobject⟩

/-! ## Values, items and members -/

-- In each case the part that comes last is read by the machine that the parts before it lead to, which fit.
mutual

/-- **A text of the grammar fits, or the machine fails for its depth**, where it is ready for a value. -/
theorem Spells.fits_or_overflows {d : Nat} {w : List Char} {v : Value} : Spells d w v →
    ∀ {stack : List Frame} {m : Machine} {room : Nat}, Ready stack m → stack.length + room = maxNesting →
      Spells room w v ∨ Overflows m w
  | .word h, _, _, _, _, _ => .inl (.word h)
  | .number h hn hx, _, _, _, _, _ => .inl (.number h hn hx)
  | .text h, _, _, _, _, _ => .inl (.text h)
  | .emptyList hb, stack, m, room, hm, hroom => by
    cases room with
    | zero => exact .inr (hm.overflows hroom _).1
    | succ room => exact .inl (.emptyList hb)
  | .list h, stack, m, room, hm, hroom => by
    cases room with
    | zero => exact .inr (hm.overflows hroom _).1
    | succ room =>
      rcases @SpellsItems.fits_or_overflows _ _ _ h stack room (by omega) with hfits | hover
      · exact .inl (.list hfits)
      · exact .inr (((hm.opens (by omega)).1.overflows hover).append [']'])
  | .emptyObject hb, stack, m, room, hm, hroom => by
    cases room with
    | zero => exact .inr (hm.overflows hroom _).2
    | succ room => exact .inl (.emptyObject hb)
  | .object h, stack, m, room, hm, hroom => by
    cases room with
    | zero => exact .inr (hm.overflows hroom _).2
    | succ room =>
      rcases @SpellsMembers.fits_or_overflows _ _ _ h stack room (by omega) with hfits | hover
      · exact .inl (.object hfits)
      · exact .inr (((hm.opens (by omega)).2.overflows hover).append ['}'])

theorem SpellsItem.fits_or_overflows {d : Nat} {w : List Char} {v : Value} : SpellsItem d w v →
    ∀ {stack : List Frame} {m : Machine} {room : Nat}, Ready stack m → stack.length + room = maxNesting →
      SpellsItem room w v ∨ Overflows m w
  | @SpellsItem.padded _ _ _ b' _ hb h hb', stack, m, room, hm, hroom => by
    rcases h.fits_or_overflows hm hroom with hfits | hover
    · exact .inl (.padded hb hfits hb')
    · exact .inr (((moves_blank hm.blank hb).overflows hover).append b')

theorem SpellsItems.fits_or_overflows {d : Nat} {w : List Char} {vs : List Value} : SpellsItems d w vs →
    ∀ {stack : List Frame} {room : Nat}, stack.length + 1 + room = maxNesting →
      SpellsItems room w vs ∨ Overflows ⟨stack, .list [] .opened⟩ w
  | .one h, stack, room, hroom => by
    rcases h.fits_or_overflows (ready_list stack [] (f := .opened) (by decide)) hroom with hfits | hover
    · exact .inl (.one hfits)
    · exact .inr hover
  | @SpellsItems.more _ u w vs _ h h', stack, room, hroom => by
    rcases h.fits_or_overflows hroom with hfits | hover
    · obtain ⟨m, hm, hlike⟩ := @SpellsItems.moves _ _ _ hfits stack (by omega)
      have hcomma : m.feed ',' = ⟨none, .next ⟨stack, .list vs.reverse .comma⟩⟩ := by
        rw [hlike _ (by decide)]
        simp [feed, step, list, isSpace]
      rcases h'.fits_or_overflows (ready_list stack vs.reverse (f := .comma) (by decide)) hroom with hlast | hover
      · exact .inl (.more hfits hlast)
      · have hmoves := (hm.trans (.single hcomma)).overflows hover
        rw [List.append_assoc] at hmoves
        exact .inr hmoves
    · exact .inr (hover.append (',' :: w))

theorem SpellsMember.fits_or_overflows {d : Nat} {w : List Char} {key : String} {v : Value} : SpellsMember d w key v →
    ∀ {stack : List Frame} {members : List (String × Value)} {f : Filling} {room : Nat}, f ≠ .filled →
      stack.length + 1 + room = maxNesting → SpellsMember room w key v ∨ Overflows ⟨stack, .object members f⟩ w
  | @SpellsMember.keyed _ _ _ _ w _ _ hb hk hb' h, stack, members, f, room, hf, hroom => by
    have hkey := (moves_blank (feed_object_blank stack members f) hb).trans (hk.moves hf)
    have hspace := moves_blank (feed_colon_blank stack members key) hb'
    have hcolon : feed ⟨stack, .colon members key⟩ ':' = ⟨none, .next ⟨.object members key :: stack, .start⟩⟩ := by
      simp [feed, step, isSpace]
    rcases h.fits_or_overflows (ready_start (.object members key :: stack)) hroom with hfits | hover
    · exact .inl (.keyed hb hk hb' hfits)
    · have hmoves := ((hkey.trans hspace).trans (.single hcolon)).overflows hover
      rw [List.append_assoc] at hmoves
      exact .inr hmoves

theorem SpellsMembers.fits_or_overflows {d : Nat} {w : List Char} {members : List (String × Value)} :
    SpellsMembers d w members → ∀ {stack : List Frame} {room : Nat}, stack.length + 1 + room = maxNesting →
      SpellsMembers room w members ∨ Overflows ⟨stack, .object [] .opened⟩ w
  | .one h, stack, room, hroom => by
    rcases @SpellsMember.fits_or_overflows _ _ _ _ h stack [] .opened room (by decide) hroom with hfits | hover
    · exact .inl (.one hfits)
    · exact .inr hover
  | @SpellsMembers.more _ u w members _ _ h h', stack, room, hroom => by
    rcases h.fits_or_overflows hroom with hfits | hover
    · obtain ⟨m, hm, hlike⟩ := @SpellsMembers.moves _ _ _ hfits stack (by omega)
      have hcomma : m.feed ',' = ⟨none, .next ⟨stack, .object members .comma⟩⟩ := by
        rw [hlike _ (by decide)]
        simp [feed, step, object, isSpace]
      rcases @SpellsMember.fits_or_overflows _ _ _ _ h' stack members .comma room (by decide) hroom with hlast | hover
      · exact .inl (.more hfits hlast)
      · have hmoves := (hm.trans (.single hcomma)).overflows hover
        rw [List.append_assoc] at hmoves
        exact .inr hmoves
    · exact .inr (hover.append (',' :: w))

end

/-! ## Texts -/

namespace Stream

theorem run_overflows {m : Machine} {w : List Char} (h : Overflows m w) (start : Nat) (here : Place) :
    ∃ fault, run m start here w = .broken start fault ∧ fault.cause = .nestedTooDeep := by
  cases h with
  | @fails _ u _ c hm hc =>
    refine ⟨Trouble.at (.here .nestedTooDeep) (here.afterAll u) c, ?_, rfl⟩
    rw [run_moves hm, run_inside hc]
    rfl

variable {d : Nat} {s : String} {v : Value}

/-- A text of a value is the stream of that value, unless it is nested too deep. -/
theorem values?_ofText_of_spells (h : Spells d s.toList v) (hd : d ≤ maxNesting) : (ofText s).values? = some [v] := by
  have hyields : Yields idle s.toList [] v := h.yields ready_idle hd
  have hend : v.isLoose = true → ∀ c ∈ ([] : List Char).head?, isDelimiter c = true := fun _ c hc => by cases hc
  have hrun := run_yields hyields 0 .origin hend
  rw [List.append_nil] at hrun
  rw [ofText, hrun, run_idle_nil]
  rfl

/-- **Depth alone keeps a value from being read.** A text of a value, nested as deep as it may be, is read as that value
if its containers are nested no deeper than is allowed, and broken for its depth if not. -/
theorem ofText_of_spells (h : Spells d s.toList v) :
    Spells maxNesting s.toList v ∧ (ofText s).values? = some [v] ∨
      ∃ fault, ofText s = .broken 0 fault ∧ fault.cause = .nestedTooDeep := by
  rcases h.fits_or_overflows ready_idle (Nat.zero_add maxNesting) with hfits | hover
  · exact .inl ⟨hfits, values?_ofText_of_spells hfits (Nat.le_refl _)⟩
  · exact .inr (run_overflows hover 0 .origin)

/-- A value that is itself nested too deep has no text that is read. -/
theorem broken_of_deep (h : Spells d s.toList v) (hv : ¬v.Nested maxNesting) :
    ∃ fault, ofText s = .broken 0 fault ∧ fault.cause = .nestedTooDeep := by
  rcases ofText_of_spells h with ⟨hfits, -⟩ | hbroken
  · exact absurd hfits.within hv
  · exact hbroken

end Stream

end Pinpoint.Json
