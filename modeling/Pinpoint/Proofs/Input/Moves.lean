import Pinpoint.Input.Pool

/-!
# Moves of a pool

What a move can do is said once (`Step`): a move that does not leave the pool as it is takes an input, reads one, sends
a result or loses a worker, and of the inputs that are in the pool (`tasks`) it touches one (`Step.tasks`). While the
pool is not done some move can be made that loses nobody (`exists_step`), and every move that is made brings the end
nearer (`Step.remaining_lt`).
-/

namespace Pinpoint

/-- An entry of a list stands between what is before it and what is after it. -/
theorem exists_append_of_getElem? {α : Type} {as : List α} {k : Nat} {a : α} (h : as[k]? = some a) :
    ∃ before after, as = before ++ a :: after ∧ before.length = k := by
  obtain ⟨hk, rfl⟩ := List.getElem?_eq_some_iff.mp h
  refine ⟨as.take k, as.drop (k + 1), ?_, by simp; omega⟩
  rw [← List.drop_eq_getElem_cons hk, List.take_append_drop]

/-- The input is still to be read. -/
def Task.isReading : Task → Bool
  | .reading _ => true
  | .sending _ => false

namespace Pool

variable {s : Surroundings} {p p' : Pool} {m : Move}

/-- What a move that can be made does. -/
inductive Step (s : Surroundings) (p : Pool) : Move → Pool → Prop
  | take {a : Indexed String} {waiting : List (Indexed String)} : p.waiting = a :: waiting → p.busy.length < p.size →
      Step s p .take { p with waiting, busy := p.busy ++ [⟨a.index, .reading a.item⟩] }
  | read {index : Nat} {name : String} {before after : List (Indexed Task)} :
      p.busy = before ++ ⟨index, .reading name⟩ :: after →
      Step s p (.read before.length)
        { p with
          busy := before ++ ⟨index, .sending (s.source p.stdin name).1.collect.result⟩ :: after
          stdin := (s.source p.stdin name).2
          events := p.events ++ (s.source p.stdin name).1.collect.events }
  | send {index : Nat} {c : Collected} {before after : List (Indexed Task)} :
      p.busy = before ++ ⟨index, .sending c⟩ :: after →
      Step s p (.send before.length) { p with busy := before ++ after, channel := p.channel ++ [⟨index, c⟩] }
  | lose {t : Indexed Task} {before after : List (Indexed Task)} :
      p.busy = before ++ t :: after → Step s p (.lose before.length) { p with busy := before ++ after }

/-- The move loses a worker. -/
def Move.isLoss : Move → Bool
  | .lose _ => true
  | _ => false

/-- A step is what the move comes to. -/
theorem Step.advance_eq (h : Step s p m p') : p.advance s m = p' := by
  cases h with
  | take hwaiting hfree => rw [advance, hwaiting]; exact if_pos hfree
  | read hbusy => simp [advance, hbusy]
  | send hbusy => simp [advance, hbusy, List.eraseIdx_append_of_length_le]
  | lose hbusy => simp [advance, hbusy, List.eraseIdx_append_of_length_le]

/-- A move leaves the pool as it is or is a step. -/
theorem advance_eq_or_step (s : Surroundings) (p : Pool) (m : Move) :
    p.advance s m = p ∨ Step s p m (p.advance s m) := by
  have of_step {p'} (h : Step s p m p') : p.advance s m = p ∨ Step s p m (p.advance s m) := .inr (h.advance_eq ▸ h)
  cases m with
  | take =>
    cases hwaiting : p.waiting with
    | nil => exact .inl (by rw [advance, hwaiting])
    | cons a waiting =>
      by_cases hfree : p.busy.length < p.size
      · exact of_step (.take hwaiting hfree)
      · exact .inl (by rw [advance, hwaiting]; exact if_neg hfree)
  | read worker =>
    cases hbusy : p.busy[worker]? with
    | none => exact .inl (by rw [advance, hbusy])
    | some t =>
      obtain ⟨index, name | c⟩ := t
      · obtain ⟨before, after, hsplit, rfl⟩ := exists_append_of_getElem? hbusy
        exact of_step (.read hsplit)
      · exact .inl (by rw [advance, hbusy])
  | send worker =>
    cases hbusy : p.busy[worker]? with
    | none => exact .inl (by rw [advance, hbusy])
    | some t =>
      obtain ⟨index, name | c⟩ := t
      · exact .inl (by rw [advance, hbusy])
      · obtain ⟨before, after, hsplit, rfl⟩ := exists_append_of_getElem? hbusy
        exact of_step (.send hsplit)
  | lose worker =>
    cases hbusy : p.busy[worker]? with
    | none => exact .inl (by rw [advance, List.eraseIdx_eq_self.mpr (List.getElem?_eq_none_iff.mp hbusy)])
    | some t =>
      obtain ⟨before, after, hsplit, rfl⟩ := exists_append_of_getElem? hbusy
      exact of_step (.lose hsplit)

/-- What every step keeps from pool to pool, a schedule keeps. -/
theorem perform_induction {motive : Pool → Prop} {moves : List Move} (hp : motive p)
    (hstep : ∀ p m p', m ∈ moves → motive p → Step s p m p' → motive p') : motive (p.perform s moves) := by
  induction moves generalizing p with
  | nil => exact hp
  | cons m moves ih =>
    refine ih ?_ fun p m p' hm => hstep p m p' (List.mem_cons_of_mem _ hm)
    rcases advance_eq_or_step s p m with h | h
    · rw [h]; exact hp
    · exact hstep _ _ _ List.mem_cons_self hp h

/-! ## Tasks -/

/-- All inputs in the pool with what is still to be done about them; those whose result was sent are in it, too. -/
def tasks (p : Pool) : List (Indexed Task) :=
  p.waiting.map (fun a => ⟨a.index, .reading a.item⟩) ++ p.busy ++ p.channel.map fun a => ⟨a.index, .sending a.item⟩

/-- The tasks around that of a busy worker. -/
theorem perm_tasks {p : Pool} {t : Indexed Task} {before after : List (Indexed Task)}
    (hbusy : p.busy = before ++ t :: after) : p.tasks.Perm (t :: tasks { p with busy := before ++ after }) := by
  simp only [tasks, hbusy, List.append_assoc, List.cons_append]
  exact (List.perm_middle.append_left _).trans List.perm_middle

/-- A step does something about one input or loses it; the others stay as they are. -/
theorem Step.tasks (h : Step s p m p') :
    (p.tasks.Perm p'.tasks ∧ p'.stdin = p.stdin) ∨
      (∃ index name rest, p.tasks.Perm (⟨index, .reading name⟩ :: rest) ∧
        p'.tasks.Perm (⟨index, .sending (s.source p.stdin name).1.collect.result⟩ :: rest) ∧
        p'.stdin = (s.source p.stdin name).2) ∨
      m.isLoss ∧ ∃ t, p.tasks.Perm (t :: p'.tasks) ∧ p'.stdin = p.stdin := by
  cases h with
  | @take a waiting hwaiting _ =>
    refine .inl ⟨?_, rfl⟩
    have htaken := perm_tasks (p := { p with waiting, busy := p.busy ++ [⟨a.index, .reading a.item⟩] })
      (show _ = p.busy ++ ⟨a.index, .reading a.item⟩ :: [] from rfl)
    simpa [Pool.tasks, hwaiting] using htaken.symm
  | read hbusy => exact .inr (.inl ⟨_, _, _, perm_tasks hbusy, perm_tasks rfl, rfl⟩)
  | @send index c before after hbusy =>
    refine .inl ⟨(perm_tasks hbusy).trans ?_, rfl⟩
    have hsent := List.perm_append_singleton (⟨index, .sending c⟩ : Indexed Task)
      (Pool.tasks { p with busy := before ++ after })
    simpa [Pool.tasks] using hsent.symm
  | lose hbusy => exact .inr (.inr ⟨rfl, _, perm_tasks hbusy, rfl⟩)

/-! ## Progress -/

/-- How many moves the pool still needs: three for an input that waits, two for one that is to be read and one for one
that is to be sent. -/
def remaining (p : Pool) : Nat :=
  3 * p.waiting.length + p.busy.length + p.busy.countP fun t => t.item.isReading

/-- Every step brings the end nearer. -/
theorem Step.remaining_lt (h : Step s p m p') : p'.remaining < p.remaining := by
  cases h with
  | take hwaiting _ => simp [remaining, hwaiting, Task.isReading]; omega
  | read hbusy => simp [remaining, hbusy, Task.isReading]
  | send hbusy => simp [remaining, hbusy, Task.isReading]
  | lose hbusy => simp [remaining, hbusy, List.countP_cons]; omega

/-- A pool with a worker that is not done can go on without losing one. -/
theorem exists_step (hsize : 0 < p.size) (hdone : p.isDone = false) :
    ∃ m p', m.isLoss = false ∧ Step s p m p' := by
  cases hbusy : p.busy with
  | nil =>
    cases hwaiting : p.waiting with
    | nil => simp [isDone, hbusy, hwaiting] at hdone
    | cons a waiting => exact ⟨.take, _, rfl, .take hwaiting (by simpa [hbusy] using hsize)⟩
  | cons t rest =>
    obtain ⟨index, name | c⟩ := t
    · exact ⟨.read 0, _, rfl, .read (show p.busy = [] ++ ⟨index, .reading name⟩ :: rest from hbusy)⟩
    · exact ⟨.send 0, _, rfl, .send (show p.busy = [] ++ ⟨index, .sending c⟩ :: rest from hbusy)⟩

end Pool

end Pinpoint
