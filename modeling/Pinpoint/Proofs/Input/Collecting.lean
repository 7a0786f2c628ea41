import Pinpoint.Proofs.Input.Schedules

/-!
# Collecting at once and in order

A pool gives what its inputs give one after the other. With one worker it does so in any case
(`Surroundings.result_of_single`), with more of them where at most one input reads the standard input; and it comes to
an end (`Surroundings.collectPooled_eq_collect`).
-/

namespace Pinpoint

namespace Pool

variable {s : Surroundings} {names : List String} {p p' : Pool} {m : Move}

/-! ## One worker -/

/-- What tasks come to that are done one after the other. -/
def foretold (s : Surroundings) : List Delivery → List (Indexed Task) → List (Indexed Collected)
  | _, [] => []
  | stdin, ⟨index, .reading name⟩ :: ts =>
    ⟨index, (s.source stdin name).1.collect.result⟩ :: foretold s (s.source stdin name).2 ts
  | stdin, ⟨index, .sending c⟩ :: ts => ⟨index, c⟩ :: foretold s stdin ts

/-- Inputs that are to be read come to what they give one after the other. -/
theorem foretold_reading (s : Surroundings) (stdin : List Delivery) (names : List String) (k : Nat) :
    foretold s stdin ((names.zipIdx k).map fun (name, index) => ⟨index, .reading name⟩) =
      (((s.sources stdin names).map fun x => x.collect.result).zipIdx k).map fun (c, index) => ⟨index, c⟩ := by
  induction names generalizing stdin k with
  | nil => rfl
  | cons name names ih =>
    rw [Surroundings.sources_cons, ← Surroundings.source_left]
    simp only [List.zipIdx_cons, List.map_cons, foretold, ih]

/-- A pool with one worker whose results and tasks come to what the inputs give one after the other. -/
structure InLine (s : Surroundings) (names : List String) (p : Pool) : Prop where
  size : p.size = 1
  busy : p.busy.length ≤ 1
  results : p.channel ++ foretold s p.stdin (p.busy ++ p.waiting.map fun a => ⟨a.index, .reading a.item⟩) =
    indexed (s.collect names).result

theorem inLine_start {jobs : UInt64} (hjobs : jobs ≤ 1) (names : List String) :
    InLine s names (start s jobs names) := by
  refine ⟨?_, Nat.zero_le _, ?_⟩
  · have hjobs' : jobs.toNat ≤ 1 := hjobs
    show max jobs.toNat 1 = 1
    omega
  · have hreading := foretold_reading s s.stdin names 0
    simpa [start, indexed, Surroundings.collect, Function.comp_def] using hreading

/-- The only busy worker has none before it and none after it. -/
theorem InLine.alone (h : InLine s names p) {t : Indexed Task} {before after : List (Indexed Task)}
    (hbusy : p.busy = before ++ t :: after) : before = [] ∧ after = [] := by
  have hlength := h.busy
  rw [hbusy, List.length_append, List.length_cons] at hlength
  exact ⟨List.eq_nil_of_length_eq_zero (by omega), List.eq_nil_of_length_eq_zero (by omega)⟩

/-- Each step that loses nobody keeps the line. -/
theorem Step.inLine (hstep : Step s p m p') (hm : m.isLoss = false) (h : InLine s names p) : InLine s names p' := by
  have hresults := h.results
  cases hstep with
  | take hwaiting hfree =>
    rw [h.size] at hfree
    have hbusy : p.busy = [] := List.eq_nil_of_length_eq_zero (by omega)
    refine ⟨h.size, by simp [hbusy], ?_⟩
    rw [hbusy, hwaiting] at hresults
    simpa [hbusy] using hresults
  | read hbusy =>
    obtain ⟨rfl, rfl⟩ := h.alone hbusy
    refine ⟨h.size, Nat.le_refl _, ?_⟩
    rw [hbusy] at hresults
    simpa [foretold] using hresults
  | send hbusy =>
    obtain ⟨rfl, rfl⟩ := h.alone hbusy
    refine ⟨h.size, Nat.zero_le _, ?_⟩
    rw [hbusy] at hresults
    simpa [foretold] using hresults
  | lose _ => cases hm

/-! ## The end -/

/-- A pool keeps its workers. -/
theorem size_after (s : Surroundings) (jobs : UInt64) (names : List String) (moves : List Move) :
    (after s jobs names moves).size = max jobs.toNat 1 :=
  perform_induction (motive := fun p => p.size = max jobs.toNat 1) rfl fun _ _ _ _ h hstep => by
    cases hstep <;> exact h

theorem after_concat (s : Surroundings) (jobs : UInt64) (names : List String) (moves : List Move) (m : Move) :
    after s jobs names (moves ++ [m]) = (after s jobs names moves).advance s m := by
  simp [after, perform]

/-- The next input is taken, read and sent. -/
theorem perform_next (s : Surroundings) {p : Pool} {a : Indexed String} {waiting : List (Indexed String)}
    (hsize : 0 < p.size) (hbusy : p.busy = []) (hwaiting : p.waiting = a :: waiting) :
    ∃ p', p.perform s [.take, .read 0, .send 0] = p' ∧ p'.size = p.size ∧ p'.busy = [] ∧ p'.waiting = waiting := by
  refine ⟨_, rfl, ?_⟩
  simp [perform, advance, hwaiting, hbusy, hsize]

/-- So are all inputs, in their order. -/
theorem isDone_perform_inOrder (s : Surroundings) {p : Pool} (hsize : 0 < p.size) (hbusy : p.busy = []) :
    (p.perform s (inOrder p.waiting.length)).isDone = true := by
  generalize hcount : p.waiting.length = count
  induction count generalizing p with
  | zero =>
    show (p.waiting.isEmpty && p.busy.isEmpty) = true
    rw [List.eq_nil_of_length_eq_zero hcount, hbusy]
    rfl
  | succ count ih =>
    obtain ⟨a, waiting, hwaiting⟩ := List.exists_cons_of_length_eq_add_one hcount
    obtain ⟨p', hp', hsize', hbusy', hwaiting'⟩ := perform_next s hsize hbusy hwaiting
    have hsplit : p.perform s (inOrder (count + 1)) = p'.perform s (inOrder count) := by
      rw [← hp', inOrder, List.replicate_succ, List.flatten_cons, perform, List.foldl_append]
      rfl
    rw [hsplit]
    exact ih (hsize' ▸ hsize) hbusy' (by rw [hwaiting']; simpa [hwaiting] using hcount)

end Pool

namespace Surroundings

variable {s : Surroundings} {names : List String} {jobs : UInt64} {moves : List Pool.Move}

/-- Reading one after the other is a schedule for any number of workers. -/
theorem completes_inOrder (s : Surroundings) (jobs : UInt64) (names : List String) :
    s.Completes jobs names (Pool.inOrder names.length) where
  steady m hm := by
    obtain ⟨moves, hmoves, hm⟩ := List.mem_flatten.mp hm
    rw [List.eq_of_mem_replicate hmoves] at hm
    simp only [List.mem_cons, List.not_mem_nil, or_false] at hm
    rcases hm with rfl | rfl | rfl <;> rfl
  done := by
    have hlength : (Pool.start s jobs names).waiting.length = names.length := by simp [Pool.start, indexed]
    rw [← hlength]
    exact Pool.isDone_perform_inOrder s (Nat.lt_of_lt_of_le Nat.one_pos (Nat.le_max_right _ _)) rfl

/-- One worker gives what the inputs give one after the other, also if several of them read the standard input. -/
theorem result_of_single (hjobs : jobs ≤ 1) (h : s.Completes jobs names moves) :
    (s.collectPooled jobs names moves).result = (s.collect names).result := by
  have hline : Pool.InLine s names (Pool.after s jobs names moves) :=
    Pool.perform_induction (Pool.inLine_start hjobs names) fun _ m _ hm h' hstep => hstep.inLine (h.steady m hm) h'
  have hdone := h.done
  simp only [Pool.isDone, Bool.and_eq_true, List.isEmpty_iff] at hdone
  have hresults := hline.results
  rw [hdone.1, hdone.2] at hresults
  refine Pool.collected_of_indexed ?_ (by simpa [Pool.foretold] using hresults)
  rw [← List.length_map Collected.name, s.names_collect]

/-- **Reading at once refines reading in order.** Let at most one input be the standard input, for which it is enough
that `-` is among them at most once and no file name leads to it (`once_of_count`). Whatever was done so far and whoever
did it, a pool that is not done can go on, each move that does anything brings the end nearer, and in the end, in
whatever order the results come out of the channel, the pool gives what the inputs give one after the other: for each of
them, in order, its name with what it gives alone. -/
theorem collectPooled_eq_collect (s : Surroundings) (jobs : UInt64) (names : List String) (moves : List Pool.Move)
    (honce : names.countP s.readsStdin ≤ 1) (hsteady : ∀ m ∈ moves, m.isLoss = false) :
    ((Pool.after s jobs names moves).isDone = false →
      ∃ m, m.isLoss = false ∧ Pool.after s jobs names (moves ++ [m]) ≠ Pool.after s jobs names moves) ∧
    (∀ m, Pool.after s jobs names (moves ++ [m]) ≠ Pool.after s jobs names moves →
      (Pool.after s jobs names (moves ++ [m])).remaining < (Pool.after s jobs names moves).remaining) ∧
    ((Pool.after s jobs names moves).isDone = true →
      (s.collectPooled jobs names moves).result = (s.collect names).result ∧
        (s.collectPooled jobs names moves).result.map Collected.name = names ∧
        ∀ channel, channel.Perm (Pool.after s jobs names moves).channel →
          (Pool.collected { Pool.after s jobs names moves with channel } names).result = names.map s.alone) := by
  refine ⟨fun hdone => ?_, fun m hm => ?_, fun hdone => ?_⟩
  · have hsize : 0 < (Pool.after s jobs names moves).size := by rw [Pool.size_after]; omega
    obtain ⟨m, p', hm, hstep⟩ := Pool.exists_step (s := s) hsize hdone
    refine ⟨m, hm, fun heq => ?_⟩
    rw [Pool.after_concat, hstep.advance_eq] at heq
    exact absurd hstep.remaining_lt (by rw [heq]; exact Nat.lt_irrefl _)
  · rw [Pool.after_concat] at hm ⊢
    exact ((Pool.advance_eq_or_step s _ m).resolve_left hm).remaining_lt
  · have hcompletes : s.Completes jobs names moves := ⟨hsteady, hdone⟩
    have hresult : (s.collectPooled jobs names moves).result = names.map s.alone :=
      result_collectPooled_of_once honce hcompletes
    refine ⟨hresult.trans (result_collect_of_once honce).symm, ?_, fun channel => result_of_once honce hcompletes⟩
    rw [hresult, ← result_collect_of_once honce, s.names_collect]

/-- Two workers and three inputs, two of them the same file that is not there: the second input overtakes the first. -/
theorem collectPooled_eq_collect_overtaking : ∃ moves,
    (Pool.after (withoutFiles []) 2 ["a", "-", "a"] moves).isDone = true ∧
      (Pool.after (withoutFiles []) 2 ["a", "-", "a"] moves).channel.map Indexed.index = [1, 2, 0] ∧
      ((withoutFiles []).collectPooled 2 ["a", "-", "a"] moves).result =
        [⟨"a", .error (.unopened "a" .notFound)⟩, ⟨"-", .ok []⟩, ⟨"a", .error (.unopened "a" .notFound)⟩] := by
  refine ⟨[.take, .take, .read 1, .send 1, .take, .read 1, .read 0, .send 1, .send 0], rfl, rfl, ?_⟩
  have honce : ["a", "-", "a"].countP (withoutFiles []).readsStdin ≤ 1 :=
    once_of_count (openName_withoutFiles []) (by decide)
  have hpool := (collectPooled_eq_collect (withoutFiles []) 2 ["a", "-", "a"]
    [.take, .take, .read 1, .send 1, .take, .read 1, .read 0, .send 1, .send 0] honce (by decide)).2.2 rfl
  exact hpool.1

end Surroundings

end Pinpoint
