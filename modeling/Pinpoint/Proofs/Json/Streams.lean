import Pinpoint.Proofs.Json.Recognition
import Pinpoint.Proofs.Json.Runs

/-!
# The streams of the grammar

A text is read to its end exactly if the grammar derives a stream of values from it, and the values are the ones that
are read (`values?_ofText_iff`). A text that only begins with such a stream is read as that stream first (`run_follow`).
-/

namespace Pinpoint.Json

open Machine

namespace Stream

/-! ## From the grammar -/

theorem run_moves {m m' : Machine} {w : List Char} (h : Moves m w m') (start : Nat) (here : Place) (cs : List Char) :
    run m start here (w ++ cs) = run m' start (here.afterAll w) cs := by
  induction h generalizing here with
  | refl m => rfl
  | cons hc _ ih => rw [List.cons_append, run_inside hc]; exact ih _

/-- A value that waits for a delimiter is handed out before it, or at the end of the text. -/
theorem run_endBefore {m : Machine} {v : Value} (hfinish : m.finish = (some v, none))
    (hfeed : ∀ c, isDelimiter c = true → m.feed c = endBefore v c) (start : Nat) (here : Place) {cs : List Char}
    (hcs : ∀ c ∈ cs.head?, isDelimiter c = true) :
    run m start here cs = .value start v (run idle here.offset here cs) := by
  cases cs with
  | nil => simp only [run, atEnd, hfinish]; rfl
  | cons c cs =>
    have hc : isDelimiter c = true := hcs c rfl
    have hm : m.feed c = ⟨some v, idle.step c⟩ := by rw [hfeed c hc, endBefore, if_pos hc]
    rw [run_after hm, run_idle_cons]

/-- A value that is complete on the empty stack is a value of the stream. -/
theorem run_yields {m : Machine} {w : List Char} {v : Value} (h : Yields m w [] v) (start : Nat) (here : Place)
    {cs : List Char} (hcs : v.isLoose = true → ∀ c ∈ cs.head?, isDelimiter c = true) :
    run m start here (w ++ cs) =
      .value start v (run idle (here.afterAll w).offset (here.afterAll w) cs) := by
  cases h with
  | closed hv hm hc =>
    rw [List.append_assoc, run_moves hm, Place.afterAll_append]
    exact run_inside hc start _ cs
  | word hv hm hc =>
    rw [run_moves (hm.trans (.single hc))]
    exact run_endBefore rfl (fun _ _ => rfl) start _ (hcs hv)
  | number hn hx hm =>
    rw [run_moves hm]
    refine run_endBefore ?_ (fun c hc => ?_) start _ (hcs rfl)
    · simp [finish, hn, hx]
    · simp [feed, Numeral.step_delimiter hn hc, hx]

/-- **The machine reads every stream of the grammar.** -/
theorem values?_run_of_spells {w : List Char} {vs : List Value} (h : SpellsStream w vs) (start : Nat) (here : Place) :
    (run idle start here w).values? = some vs := by
  induction h generalizing start here with
  | @done b hb =>
    have := run_moves (moves_blank ready_idle.blank hb) start here []
    rw [List.append_nil] at this
    rw [this, run_idle_nil]; rfl
  | @value b w rest v vs hb hw hloose _ ih =>
    have hyields : Yields idle w [] v := hw.yields ready_idle (Nat.le_refl _)
    rw [List.append_assoc, run_moves (moves_blank ready_idle.blank hb), run_yields hyields _ _ hloose]
    exact values?_value.mpr ⟨vs, ih _ _, rfl⟩

/-! ## In front of other text -/

/-- Nothing is spelled by no text. -/
theorem eq_nil_of_spells_nil {vs : List Value} (h : SpellsStream [] vs) : vs = [] := by
  have hvs := values?_run_of_spells h 0 .origin
  rw [run_idle_nil] at hvs
  exact (Option.some.inj hvs).symm

/-- **A stream that a text begins with is read as if alone**, and what follows it as if nothing came before, as long as
the last value of the stream has ended. -/
theorem run_follow {p : List Char} {vs : List Value} (h : SpellsStream p vs) {q : List Char}
    (hq : ∀ v ∈ vs.getLast?, v.isLoose = true → ∀ c ∈ q.head?, isDelimiter c = true) (start : Nat) (here : Place) :
    run idle start here (p ++ q) =
      (run idle start here p).follow fun stop => run idle stop (here.afterAll p) q := by
  induction h generalizing start here with
  | @done b hb =>
    have hmoves := moves_blank ready_idle.blank hb
    have halone := run_moves hmoves start here []
    rw [List.append_nil, run_idle_nil] at halone
    rw [run_moves hmoves, halone]
    rfl
  | @value b w rest v vs hb hw hloose hrest ih =>
    have hyields : Yields idle w [] v := hw.yields ready_idle (Nat.le_refl _)
    have hnext : v.isLoose = true → ∀ c ∈ (rest ++ q).head?, isDelimiter c = true := by
      intro hv
      cases rest with
      | nil =>
        obtain rfl := eq_nil_of_spells_nil hrest
        exact hq v rfl hv
      | cons c rest => exact hloose hv
    have hlast : ∀ u ∈ vs.getLast?, u.isLoose = true → ∀ c ∈ q.head?, isDelimiter c = true := by
      intro u hu
      apply hq u
      cases vs with
      | nil => cases hu
      | cons u' vs => rwa [List.getLast?_cons_cons]
    have hread : ∀ cs, (v.isLoose = true → ∀ c ∈ cs.head?, isDelimiter c = true) →
        run idle start here (b ++ w ++ cs) = .value start v
          (run idle (here.afterAll (b ++ w)).offset (here.afterAll (b ++ w)) cs) := by
      intro cs hcs
      rw [List.append_assoc, run_moves (moves_blank ready_idle.blank hb), run_yields hyields _ _ hcs,
        Place.afterAll_append]
    rw [List.append_assoc, hread _ hnext, hread _ hloose, follow, ih hlast, Place.afterAll_append _ (b ++ w)]

/-! ## From the machine -/

/-- **The grammar derives every stream that the machine reads**, also with some of it read already. -/
theorem spells_of_values?_run {m : Machine} {w : List Char} (h : Holds m w) (cs : List Char) {start : Nat}
    {here : Place} {vs : List Value} (hvs : (run m start here cs).values? = some vs) :
    SpellsStream (w ++ cs) vs := by
  induction cs generalizing m w start here vs with
  | nil =>
    have hfinish := h.finish
    simp only [run, atEnd] at hvs
    generalize m.finish = last at hfinish hvs
    cases hfinish with
    | between _ hb => cases hvs; rw [List.append_nil]; exact .done hb
    | value hv hw =>
      obtain ⟨us, hus, rfl⟩ := values?_value.mp hvs
      cases hus
      cases hw with
      | value hb hx => exact .value hb hx (fun _ _ hc => by cases hc) (.done .nil)
    | missing cause => cases hvs
  | cons c cs ih =>
    have hresume : ∀ {s : Step} {u : List Char} {i : Nat} {us : List Value}, s.Holds u →
        (resume s i here c cs).values? = some us → SpellsStream (u ++ cs) us := by
      intro s u i us hs hus
      cases s with
      | next m' => exact ih hs hus
      | value v =>
        obtain ⟨us', hus', rfl⟩ := values?_value.mp hus
        obtain ⟨hv, hw⟩ := hs
        cases hw with
        | value hb hx => exact .value hb hx (fun h => absurd h (by rw [hv]; decide)) (ih holds_idle hus')
      | fail t => cases hus
    have hfeed := h.feed c
    cases hm : m.feed c with
    | mk ended s =>
      rw [hm] at hfeed
      cases hfeed with
      | inside hs =>
        rw [run_inside hm] at hvs
        have := hresume hs hvs
        rwa [List.append_assoc] at this
      | after hv hc hw hs =>
        rw [run_after hm] at hvs
        obtain ⟨us, hus, rfl⟩ := values?_value.mp hvs
        have := hresume hs hus
        cases hw with
        | value hb hx => exact .value hb hx (fun _ c' hc' => by cases hc'; exact hc) this

/-- The values of a text are those that the grammar derives from it. -/
theorem values?_ofText_iff {s : String} {vs : List Value} :
    (Stream.ofText s).values? = some vs ↔ SpellsStream s.toList vs :=
  ⟨fun h => spells_of_values?_run holds_idle s.toList h, fun h => values?_run_of_spells h 0 .origin⟩

end Stream

end Pinpoint.Json
