import Pinpoint.Proofs.Input.Moves
import Pinpoint.Proofs.Input.Slots
import Pinpoint.Proofs.Input.Sources

/-!
# Schedules

Whatever the schedule of a pool, each step keeps every task with its own input (`Pool.Sound`), so the index of a result
is that of its input. Where at most one input reads the standard input, each then gives what it gives alone
(`Surroundings.result_of_once`); and if workers are lost, so are their inputs, and no others
(`Surroundings.getElem?_collectPooled`).
-/

namespace Pinpoint

namespace Task

/-- The input that the task is about. -/
def name : Task → String
  | .reading name => name
  | .sending c => c.name

/-- The standard input is still to be read. -/
def readsStdin (s : Surroundings) : Task → Bool
  | .reading name => s.readsStdin name
  | .sending _ => false

end Task

namespace Pool

variable {s : Surroundings} {names : List String} {p p' : Pool} {m : Move} {moves : List Move}

/-! ## Tasks and their inputs -/

/-- Tasks, no two about one input, each about its own; what was read is what the input gives alone; and what is on the
standard input is all of it, as long as a task is to read it. -/
structure Sound (s : Surroundings) (names : List String) (ts : List (Indexed Task)) (stdin : List Delivery) : Prop where
  nodup : (ts.map Indexed.index).Nodup
  own : ∀ t ∈ ts, names[t.index]? = some t.item.name
  alone : ∀ t ∈ ts, ∀ c, t.item = .sending c → c = s.alone c.name
  once : ts.countP (fun t => t.item.readsStdin s) ≤ 1
  fresh : ∀ t ∈ ts, t.item.readsStdin s = true → stdin = s.stdin

variable {ts ts' : List (Indexed Task)} {t : Indexed Task} {stdin : List Delivery} {index : Nat} {name : String}

/-- The order of the tasks does not matter. -/
theorem Sound.perm (h : Sound s names ts stdin) (hperm : ts.Perm ts') : Sound s names ts' stdin where
  nodup := (hperm.map _).nodup_iff.mp h.nodup
  own t ht := h.own t (hperm.mem_iff.mpr ht)
  alone t ht := h.alone t (hperm.mem_iff.mpr ht)
  once := hperm.countP_eq _ ▸ h.once
  fresh t ht := h.fresh t (hperm.mem_iff.mpr ht)

/-- A task may be missing. -/
theorem Sound.tail (h : Sound s names (t :: ts) stdin) : Sound s names ts stdin where
  nodup := (List.nodup_cons.mp h.nodup).2
  own t ht := h.own t (List.mem_cons_of_mem _ ht)
  alone t ht := h.alone t (List.mem_cons_of_mem _ ht)
  once := Nat.le_trans (List.sublist_cons_self t ts |>.countP_le) h.once
  fresh t ht := h.fresh t (List.mem_cons_of_mem _ ht)

/-- Reading an input gives what it gives alone: if it is the standard input, nobody has read that before. -/
theorem Sound.read (h : Sound s names (⟨index, .reading name⟩ :: ts) stdin) :
    Sound s names (⟨index, .sending (s.source stdin name).1.collect.result⟩ :: ts) (s.source stdin name).2 := by
  have hown := h.own _ List.mem_cons_self
  have hname : (s.source stdin name).1.collect.result.name = name := by
    rw [Source.name_collect, Surroundings.name_source]
  have halone : (s.source stdin name).1.collect.result = s.alone name := by
    cases hreads : s.readsStdin name with
    | true => rw [h.fresh _ List.mem_cons_self hreads, Surroundings.alone]
    | false => rw [Surroundings.source_of_file hreads stdin s.stdin, Surroundings.alone]
  refine ⟨h.nodup, fun t ht => ?_, fun t ht c hc => ?_, ?_, fun t ht hreads => ?_⟩
  · rcases List.mem_cons.mp ht with rfl | ht
    · exact hown.trans (congrArg some hname.symm)
    · exact h.tail.own t ht
  · rcases List.mem_cons.mp ht with rfl | ht
    · cases hc; rw [hname, halone]
    · exact h.tail.alone t ht c hc
  · rw [List.countP_cons_of_neg (by simp [Task.readsStdin])]
    exact h.tail.once
  · rcases List.mem_cons.mp ht with rfl | ht
    · cases hreads
    · have hother : s.readsStdin name = false := by
        refine Bool.eq_false_iff.mpr fun hname => ?_
        have hpos : 0 < ts.countP (fun t => t.item.readsStdin s) := List.countP_pos_iff.mpr ⟨t, ht, hreads⟩
        have honce := h.once
        rw [List.countP_cons_of_pos (by simpa [Task.readsStdin] using hname)] at honce
        omega
      rw [Surroundings.source_left]
      simp [Surroundings.left, hother, h.tail.fresh t ht hreads]

/-- Each step keeps the tasks with their inputs. -/
theorem Step.sound (hstep : Step s p m p') (h : Sound s names p.tasks p.stdin) :
    Sound s names p'.tasks p'.stdin := by
  rcases hstep.tasks with ⟨hperm, hstdin⟩ | ⟨index, name, rest, hperm, hperm', hstdin⟩ | ⟨-, t, hperm, hstdin⟩
  · rw [hstdin]; exact h.perm hperm
  · rw [hstdin]; exact (h.perm hperm).read.perm hperm'.symm
  · rw [hstdin]; exact (h.perm hperm).tail

theorem tasks_start (s : Surroundings) (jobs : UInt64) (names : List String) :
    (start s jobs names).tasks = (indexed names).map fun a => ⟨a.index, .reading a.item⟩ := by
  simp [tasks, start]

/-- At the start each input is to be read. -/
theorem sound_start (jobs : UInt64) (honce : names.countP s.readsStdin ≤ 1) :
    Sound s names (start s jobs names).tasks (start s jobs names).stdin := by
  rw [tasks_start]
  refine ⟨?_, fun t ht => ?_, fun t ht c hc => ?_, ?_, fun _ _ _ => rfl⟩
  · have hindex := map_index_indexed names
    simp only [List.map_map, Function.comp_def] at hindex ⊢
    rw [hindex]
    exact List.nodup_range
  · obtain ⟨a, ha, rfl⟩ := List.mem_map.mp ht
    exact mem_indexed_iff.mp ha
  · obtain ⟨a, -, rfl⟩ := List.mem_map.mp ht
    cases hc
  · rw [indexed, List.map_map, List.countP_map]
    rw [← List.zipIdx_map_fst 0 names, List.countP_map] at honce
    exact honce

/-- A schedule keeps the tasks with their inputs. -/
theorem sound_after (jobs : UInt64) (honce : names.countP s.readsStdin ≤ 1) (moves : List Move) :
    Sound s names (after s jobs names moves).tasks (after s jobs names moves).stdin :=
  perform_induction (motive := fun p => Sound s names p.tasks p.stdin) (sound_start jobs honce)
    fun _ _ _ _ h hstep => hstep.sound h

/-- Without losses each index stays in the pool. -/
theorem exists_task_of_index (jobs : UInt64) (hsteady : ∀ m ∈ moves, m.isLoss = false) {i : Nat}
    (hi : i < names.length) : ∃ t ∈ (after s jobs names moves).tasks, t.index = i := by
  refine perform_induction (motive := fun p => ∃ t ∈ p.tasks, t.index = i) ?_ fun p m p' hm h hstep => ?_
  · have hmem : ⟨i, names[i]⟩ ∈ indexed names := mem_indexed_iff.mpr (List.getElem?_eq_getElem hi)
    exact ⟨⟨i, .reading names[i]⟩, by rw [tasks_start]; exact List.mem_map_of_mem hmem, rfl⟩
  · obtain ⟨t, ht, rfl⟩ := h
    rcases hstep.tasks with ⟨hperm, -⟩ | ⟨index, name, rest, hperm, hperm', -⟩ | ⟨hloss, -⟩
    · exact ⟨t, hperm.mem_iff.mp ht, rfl⟩
    · rcases List.mem_cons.mp (hperm.mem_iff.mp ht) with rfl | ht
      · exact ⟨_, hperm'.mem_iff.mpr List.mem_cons_self, rfl⟩
      · exact ⟨t, hperm'.mem_iff.mpr (List.mem_cons_of_mem _ ht), rfl⟩
    · rw [hsteady m hm] at hloss; cases hloss

/-- At the end everything has been sent. -/
theorem tasks_of_isDone (hdone : p.isDone = true) :
    p.tasks = p.channel.map fun a => ⟨a.index, .sending a.item⟩ := by
  simp only [isDone, Bool.and_eq_true, List.isEmpty_iff] at hdone
  simp [tasks, hdone]

/-! ## Results of a pool -/

/-- The result that a sound pool gives for an input in the end is what the input gives alone, if its task is in the
pool. -/
theorem Sound.getElem?_collected (h : Sound s names p.tasks p.stdin) (hdone : p.isDone = true) (ht : t ∈ p.tasks) :
    (p.collected names).result[t.index]? = names[t.index]?.map s.alone := by
  have hname := h.own t ht
  have halone := h.alone t ht
  have hnodup := h.nodup
  have hlt : t.index < names.length := (List.getElem?_eq_some_iff.mp hname).1
  rw [tasks_of_isDone hdone] at ht hnodup
  rw [List.map_map] at hnodup
  obtain ⟨a, ha, rfl⟩ := List.mem_map.mp ht
  rw [hname, Pool.getElem?_collected hname (getElem?_slotted hnodup ha hlt)]
  exact congrArg some (halone a.item rfl)

/-- If no task with its index is in the pool, it is the error that it was lost. -/
theorem getElem?_collected_of_lost (hdone : p.isDone = true) {i : Nat} (hname : names[i]? = some name)
    (hi : ∀ t ∈ p.tasks, t.index ≠ i) :
    (p.collected names).result[i]? = some ⟨name, .error (.lost name)⟩ := by
  rw [tasks_of_isDone hdone] at hi
  have hchannel : ∀ a ∈ p.channel, a.index ≠ i := fun a ha => hi _ (List.mem_map_of_mem ha)
  exact Pool.getElem?_collected hname
    (getElem?_slotted_of_missing (List.getElem?_eq_some_iff.mp hname).1 hchannel)

end Pool

namespace Surroundings

variable {s : Surroundings} {names : List String} {jobs : UInt64} {moves : List Pool.Move}

/-- Whatever workers are lost, the result for an input is its own or the error that it was lost. -/
theorem getElem?_collectPooled (honce : names.countP s.readsStdin ≤ 1)
    (hdone : (Pool.after s jobs names moves).isDone = true) {i : Nat} {name : String}
    (hname : names[i]? = some name) :
    (s.collectPooled jobs names moves).result[i]? = some (s.alone name) ∨
      (s.collectPooled jobs names moves).result[i]? = some ⟨name, .error (.lost name)⟩ := by
  by_cases hi : ∃ t ∈ (Pool.after s jobs names moves).tasks, t.index = i
  · obtain ⟨t, ht, rfl⟩ := hi
    left
    rw [collectPooled, (Pool.sound_after jobs honce moves).getElem?_collected hdone ht, hname]
    rfl
  · exact .inr (Pool.getElem?_collected_of_lost hdone hname fun t ht heq => hi ⟨t, ht, heq⟩)

/-- The schedule brings the pool to its end and loses no worker, so each sends what it read. -/
structure Completes (s : Surroundings) (jobs : UInt64) (names : List String) (moves : List Pool.Move) : Prop where
  steady : ∀ m ∈ moves, m.isLoss = false
  done : (Pool.after s jobs names moves).isDone = true

/-- Where at most one input reads the standard input, each gives what it gives alone, in whatever order the results come
out of the channel. -/
theorem result_of_once (honce : names.countP s.readsStdin ≤ 1) (h : s.Completes jobs names moves)
    {channel : List (Indexed Collected)} (hperm : channel.Perm (Pool.after s jobs names moves).channel) :
    (Pool.collected { Pool.after s jobs names moves with channel } names).result = names.map s.alone := by
  have htasks : (Pool.after s jobs names moves).tasks.Perm
      (Pool.tasks { Pool.after s jobs names moves with channel }) := .append_left _ (hperm.symm.map _)
  have hsound := (Pool.sound_after jobs honce moves).perm htasks
  refine List.ext_getElem? fun i => ?_
  by_cases hi : i < names.length
  · obtain ⟨t, ht, rfl⟩ := Pool.exists_task_of_index jobs h.steady hi
    rw [Pool.Sound.getElem?_collected hsound h.done (htasks.mem_iff.mp ht), List.getElem?_map]
  · rw [List.getElem?_eq_none (by rw [Pool.length_collected]; omega), List.getElem?_eq_none (by simpa using hi)]

/-- So does each in the order in which the results were sent. -/
theorem result_collectPooled_of_once (honce : names.countP s.readsStdin ≤ 1) (h : s.Completes jobs names moves) :
    (s.collectPooled jobs names moves).result = names.map s.alone :=
  result_of_once honce h (.refl _)

end Surroundings

end Pinpoint
