import Mathlib.Data.List.DropRight
import Pinpoint.Json.Stream
import Pinpoint.Proofs.Json.Reconstruction

/-!
# Runs of the machine over a text

What `Stream.run` makes of a text, from any machine that stands for the text before it (`Holds`):

- a text that comes to its end between two values is read on as if nothing had come before it (`run_append`), as long
  as none of its values is loose; its last value then ends where its space begins (`stop_ofText`);
- where a run starts decides on nothing but offsets, lines and columns (`run_moved`).
-/

namespace Pinpoint.Json

open Machine

namespace Place

/-- The place after a text. -/
def afterAll (p : Place) (w : List Char) : Place := w.foldl after p

@[simp] theorem afterAll_nil (p : Place) : p.afterAll [] = p := rfl

@[simp] theorem afterAll_cons (p : Place) (c : Char) (w : List Char) :
    p.afterAll (c :: w) = (p.after c).afterAll w := rfl

theorem afterAll_append (p : Place) (u w : List Char) : p.afterAll (u ++ w) = (p.afterAll u).afterAll w :=
  List.foldl_append

theorem offset_after (p : Place) (c : Char) : (p.after c).offset = p.offset + c.utf8Size := by
  unfold after
  split
  · next hc => subst hc; rfl
  · rfl

/-- Bytes from a place on, counted past its first character. -/
theorem offset_after_add (p : Place) (c : Char) (w : List Char) :
    (p.after c).offset + Text.bytes w = p.offset + Text.bytes (c :: w) := by
  rw [offset_after, Text.bytes_cons, Nat.add_assoc]

theorem offset_afterAll (p : Place) (w : List Char) : (p.afterAll w).offset = p.offset + Text.bytes w := by
  induction w generalizing p with
  | nil => rfl
  | cons c w ih => rw [afterAll_cons, ih, offset_after_add]

end Place

namespace Stream

/-! ## Parts of a stream -/

/-- All values, if there is no fault. -/
def values? : Stream → Option (List Value)
  | .finished _ => some []
  | .broken _ _ => none
  | .value _ v rest => rest.values?.map (v :: ·)

/-- Where the first value starts, or would start. -/
def start : Stream → Nat
  | .finished start | .broken start _ | .value start _ _ => start

/-- Where the last value ends. -/
def stop : Stream → Nat
  | .finished stop | .broken stop _ => stop
  | .value _ _ rest => rest.stop

/-- The stream with another one in the place of its end. -/
def follow (next : Nat → Stream) : Stream → Stream
  | .finished stop => next stop
  | .broken start fault => .broken start fault
  | .value start v rest => .value start v (rest.follow next)

/-- The first of the starts is that of the stream. -/
theorem start_prefix_starts (s : Stream) : [s.start] <+: s.starts := by
  cases s with
  | finished start => exact List.prefix_refl [start]
  | broken start fault => exact List.prefix_refl [start]
  | value start v rest => exact ⟨rest.starts, rfl⟩

/-- Each value counts. -/
theorem length_of_values? {s : Stream} {vs : List Value} (h : s.values? = some vs) : s.length = vs.length := by
  induction s generalizing vs with
  | finished stop => cases h; rfl
  | broken start fault => cases h
  | value start v rest ih =>
    simp only [values?, Option.map_eq_some_iff] at h
    obtain ⟨us, hus, rfl⟩ := h
    rw [length, ih hus, List.length_cons]

theorem values?_value {start : Nat} {v : Value} {rest : Stream} {vs : List Value} :
    (Stream.value start v rest).values? = some vs ↔ ∃ us, rest.values? = some us ∧ vs = v :: us := by
  simp only [values?, Option.map_eq_some_iff]
  exact ⟨fun ⟨us, hus, e⟩ => ⟨us, hus, e.symm⟩, fun ⟨us, hus, e⟩ => ⟨us, hus, e.symm⟩⟩

/-! ## One character -/

/-- What is read after a step. -/
def resume (s : Step) (start : Nat) (here : Place) (c : Char) (cs : List Char) : Stream :=
  match s with
  | .next m => run m start (here.after c) cs
  | .value v => .value start v (run idle (here.after c).offset (here.after c) cs)
  | .fail t => .broken start (t.at here c)

theorem run_inside {m : Machine} {c : Char} {s : Step} (h : m.feed c = ⟨none, s⟩) (start : Nat) (here : Place)
    (cs : List Char) : run m start here (c :: cs) = resume s start here c cs := by
  rw [run, h]; rfl

theorem run_after {m : Machine} {c : Char} {v : Value} {s : Step} (h : m.feed c = ⟨some v, s⟩) (start : Nat)
    (here : Place) (cs : List Char) :
    run m start here (c :: cs) = .value start v (resume s here.offset here c cs) := by
  rw [run, h]; rfl

theorem run_idle_cons (start : Nat) (here : Place) (c : Char) (cs : List Char) :
    run idle start here (c :: cs) = resume (idle.step c) start here c cs := run_inside rfl start here cs

/-- Between two values a run may come to its end. -/
theorem run_idle_nil (start : Nat) (here : Place) : run idle start here [] = .finished start := rfl

/-- A run hands out its first value at the start that it is given. -/
theorem start_run (m : Machine) (start : Nat) (here : Place) (cs : List Char) :
    (run m start here cs).start = start := by
  induction cs generalizing m here with
  | nil =>
    simp only [run, atEnd]
    cases h : m.finish with
    | mk ended missing => cases ended <;> cases missing <;> rfl
  | cons c cs ih =>
    cases h : m.feed c with
    | mk ended s =>
      cases ended with
      | some v => rw [run_after h]; rfl
      | none => rw [run_inside h]; cases s <;> first | exact ih _ _ | rfl

theorem start_resume (s : Step) (start : Nat) (here : Place) (c : Char) (cs : List Char) :
    (resume s start here c cs).start = start := by
  cases s with
  | next m => exact start_run m start _ cs
  | value v => rfl
  | fail t => rfl

/-! ## Places -/

/-- The second stream has the values and causes of the first one. After its first value, an offset `o` of the first
stream is an offset `o'` of the second one with `o' + a = o + b`. -/
inductive Moved (a b : Nat) : Stream → Stream → Prop
  | finished (s t : Nat) : Moved a b (.finished s) (.finished t)
  | broken (s t : Nat) {f g : Fault} : f.cause = g.cause → Moved a b (.broken s f) (.broken t g)
  | value (s t : Nat) (v : Value) {r r' : Stream} : Moved a b r r' → r'.start + a = r.start + b →
      Moved a b (.value s v r) (.value t v r')

variable {a b : Nat}

theorem Moved.values? {s t : Stream} (h : Moved a b s t) : t.values? = s.values? := by
  induction h with
  | finished s t => rfl
  | broken s t _ => rfl
  | value s t v _ _ ih => simp only [Stream.values?, ih]

/-- Where a run starts decides on nothing but places. -/
theorem run_moved (cs : List Char) {m : Machine} {s t : Nat} {here there : Place}
    (h : there.offset + a = here.offset + b) : Moved a b (run m s here cs) (run m t there cs) := by
  induction cs generalizing m s t here there with
  | nil =>
    simp only [run, atEnd]
    cases m.finish with
    | mk ended missing =>
      cases ended with
      | none =>
        cases missing with
        | none => exact .finished s t
        | some cause => exact .broken s t rfl
      | some v =>
        cases missing with
        | none => exact .value s t v (.finished _ _) h
        | some cause => exact .value s t v (.broken _ _ rfl) h
  | cons c cs ih =>
    have hafter : (there.after c).offset + a = (here.after c).offset + b := by
      rw [Place.offset_after, Place.offset_after]; omega
    have hresume : ∀ (s : Step) (i j : Nat), Moved a b (resume s i here c cs) (resume s j there c cs) := by
      intro s i j
      cases s with
      | next m => exact ih hafter
      | value v => exact .value i j v (ih hafter) (by rw [start_run, start_run]; exact hafter)
      | fail t => exact .broken i j rfl
    cases hfeed : m.feed c with
    | mk ended s' =>
      cases ended with
      | none => rw [run_inside hfeed, run_inside hfeed]; exact hresume s' s t
      | some v =>
        rw [run_after hfeed, run_after hfeed]
        exact .value s t v (hresume s' _ _) (by rw [start_resume, start_resume]; exact h)

/-! ## Values that are not loose -/

section Closed

variable {m : Machine} {w : List Char} {vs : List Value} {start : Nat} {here : Place}

/-- A run that ends without a loose value ends between two values. -/
theorem idle_of_run_nil (h : Holds m w) (hvs : (run m start here []).values? = some vs)
    (hclosed : ∀ v ∈ vs, v.isLoose = false) : m = idle ∧ Blank w := by
  have hfinish := h.finish
  simp only [run, atEnd] at hvs
  generalize m.finish = last at hfinish hvs
  cases hfinish with
  | between hm hw => exact ⟨hm, hw⟩
  | value hv _ =>
    obtain ⟨us, _, rfl⟩ := values?_value.mp hvs
    exact absurd (hclosed _ List.mem_cons_self) (by rw [hv]; decide)
  | missing cause => cases hvs

/-- A run without loose values hands out no value before a character. -/
theorem inside_of_run_cons (h : Holds m w) {c : Char} {cs : List Char}
    (hvs : (run m start here (c :: cs)).values? = some vs) (hclosed : ∀ v ∈ vs, v.isLoose = false) :
    ∃ s : Step, m.feed c = ⟨none, s⟩ ∧ s.Holds (w ++ [c]) ∧ (resume s start here c cs).values? = some vs := by
  have hfeed := h.feed c
  cases hm : m.feed c with
  | mk ended s =>
    rw [hm] at hfeed
    cases hfeed with
    | inside hs => exact ⟨s, rfl, hs, by rwa [run_inside hm] at hvs⟩
    | after hv _ _ _ =>
      rw [run_after hm] at hvs
      obtain ⟨us, _, rfl⟩ := values?_value.mp hvs
      exact absurd (hclosed _ List.mem_cons_self) (by rw [hv]; decide)

/-- **A text without loose values is read before another one as it is read alone.** -/
theorem run_append (h : Holds m w) (cs cs' : List Char) (hvs : (run m start here cs).values? = some vs)
    (hclosed : ∀ v ∈ vs, v.isLoose = false) :
    run m start here (cs ++ cs') = (run m start here cs).follow fun stop => run idle stop (here.afterAll cs) cs' := by
  induction cs generalizing m w start here vs with
  | nil =>
    obtain ⟨rfl, -⟩ := idle_of_run_nil h hvs hclosed
    rfl
  | cons c cs ih =>
    obtain ⟨s, hm, hs, hvs⟩ := inside_of_run_cons h hvs hclosed
    rw [List.cons_append, run_inside hm, run_inside hm, Place.afterAll_cons]
    cases s with
    | next m' => exact ih hs hvs hclosed
    | value v =>
      obtain ⟨us, hus, rfl⟩ := values?_value.mp hvs
      simp only [resume, follow]
      rw [ih holds_idle hus fun v hv => hclosed v (List.mem_cons_of_mem _ hv)]
    | fail t => cases hvs

/-- The last value ends after the last character that is no space, if it has not ended before. -/
theorem stop_run (h : Holds m w) (cs : List Char) (hvs : (run m start here cs).values? = some vs)
    (hclosed : ∀ v ∈ vs, v.isLoose = false) :
    Blank w ∧ Blank cs ∧ (run m start here cs).stop = start ∨
      ∃ u c b, cs = u ++ c :: b ∧ isSpace c = false ∧ Blank b ∧
        (run m start here cs).stop = here.offset + Text.bytes (u ++ [c]) := by
  induction cs generalizing m w start here vs with
  | nil =>
    obtain ⟨rfl, hw⟩ := idle_of_run_nil h hvs hclosed
    exact .inl ⟨hw, .nil, rfl⟩
  | cons c cs ih =>
    obtain ⟨s, hm, hs, hvs⟩ := inside_of_run_cons h hvs hclosed
    rw [run_inside hm]
    cases s with
    | next m' =>
      rcases ih hs hvs hclosed with ⟨hwc, hcs, hstop⟩ | ⟨u, e, b, rfl, he, hb, hstop⟩
      · obtain ⟨hw, hc⟩ := blank_append.mp hwc
        exact .inl ⟨hw, blank_cons.mpr ⟨(blank_cons.mp hc).1, hcs⟩, hstop⟩
      · exact .inr ⟨c :: u, e, b, rfl, he, hb, hstop.trans (here.offset_after_add c (u ++ [e]))⟩
    | value v =>
      obtain ⟨us, hus, rfl⟩ := values?_value.mp hvs
      have hclosed' : ∀ u ∈ us, u.isLoose = false := fun u hu => hclosed u (List.mem_cons_of_mem v hu)
      rcases ih holds_idle hus hclosed' with ⟨-, hcs, hstop⟩ | ⟨u, e, b, rfl, he, hb, hstop⟩
      · have hc : isSpace c = false := hs.2.last hs.1
        exact .inr ⟨[], c, cs, rfl, hc, hcs, hstop.trans (here.offset_after_add c [])⟩
      · exact .inr ⟨c :: u, e, b, rfl, he, hb, hstop.trans (here.offset_after_add c (u ++ [e]))⟩
    | fail t => cases hvs

end Closed

/-! ## The end of the last value -/

/-- The size of a text without the space at its end. -/
def contentSize (s : String) : Nat := Text.bytes (s.toList.rdropWhile isSpace)

theorem contentSize_of_blank {s : String} (hs : Blank s.toList) : contentSize s = 0 := by
  rw [contentSize, List.rdropWhile_eq_nil_iff.mpr hs]
  rfl

theorem contentSize_of_last {s : String} {u b : List Char} {c : Char} (hs : s.toList = u ++ c :: b)
    (hc : isSpace c = false) (hb : Blank b) : contentSize s = Text.bytes (u ++ [c]) := by
  have hrev : ∀ d ∈ b.reverse, isSpace d = true := fun d hd => hb d (List.mem_reverse.mp hd)
  rw [contentSize, hs, List.rdropWhile, List.reverse_append, List.reverse_cons, List.append_assoc,
    List.dropWhile_append_of_pos hrev]
  simp [hc]

/-- A text that is all content has no space at its end. -/
theorem isSpace_getLast? {w : List Char} (h : contentSize (String.ofList w) = Text.bytes w) :
    ∀ c ∈ w.getLast?, isSpace c = false := by
  have hbytes : Text.bytes (w.rdropWhile isSpace) + Text.bytes (w.rtakeWhile isSpace) = Text.bytes w := by
    rw [← Text.bytes_append, List.rdropWhile_append_rtakeWhile]
  rw [contentSize, String.toList_ofList] at h
  have hnil : w.rtakeWhile isSpace = [] := Text.eq_nil_of_bytes (by omega)
  intro c hc
  obtain ⟨u, rfl⟩ := List.getLast?_eq_some_iff.mp hc
  have hlast := List.rtakeWhile_eq_nil_iff.mp hnil (by simp)
  simpa using hlast

/-- The last value of a text ends where the space at its end begins. -/
theorem stop_ofText {s : String} {vs : List Value} (hvs : (ofText s).values? = some vs)
    (hclosed : ∀ v ∈ vs, v.isLoose = false) : (ofText s).stop = contentSize s := by
  rcases stop_run holds_idle s.toList hvs hclosed with ⟨-, hs, hstop⟩ | ⟨u, c, b, hs, hc, hb, hstop⟩
  · exact hstop.trans (contentSize_of_blank hs).symm
  · rw [contentSize_of_last hs hc hb]
    exact hstop.trans (Nat.zero_add _)

end Stream

end Pinpoint.Json
