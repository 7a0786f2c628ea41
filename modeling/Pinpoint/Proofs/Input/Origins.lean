import Pinpoint.Proofs.Input.Schedules

/-!
# Where results come from

Whatever the schedule, also one that loses workers or leaves some at work, and however many inputs read the standard
input: each result of a pool is what its own input gave when it was read, or the error that it was lost
(`Surroundings.origin_collectPooled`). So the messages of an input are those of a text that was delivered for it
(`Surroundings.Origin.text`).
-/

namespace Pinpoint

/-- A slot is filled by something that arrived for it. -/
theorem exists_arrival_of_slotted {α : Type} {arrivals : List (Indexed α)} {count i : Nat} {item : α}
    (h : (slotted count arrivals)[i]? = some (some item)) : ⟨i, item⟩ ∈ arrivals := by
  suffices hfold : ∀ slots : List (Option α),
      (arrivals.foldl (fun slots a => slots.set a.index (some a.item)) slots)[i]? = some (some item) →
        slots[i]? = some (some item) ∨ ⟨i, item⟩ ∈ arrivals by
    rcases hfold _ h with hempty | hmem
    · rw [List.getElem?_replicate] at hempty
      split at hempty <;> cases hempty
    · exact hmem
  clear h
  induction arrivals with
  | nil => exact fun slots h => .inl h
  | cons a arrivals ih =>
    intro slots h
    rcases ih _ h with hslot | hmem
    · rw [List.getElem?_set] at hslot
      split at hslot
      · next hindex =>
        split at hslot
        · obtain ⟨index, item'⟩ := a
          cases hslot
          cases hindex
          exact .inr List.mem_cons_self
        · cases hslot
      · exact .inl hslot
    · exact .inr (List.mem_cons_of_mem _ hmem)

namespace Surroundings

/-- What an input of the name may come to. Another one may have read the standard input before. -/
inductive Origin (s : Surroundings) (name : String) : Collected → Prop
  | read {stdin : List Delivery} : stdin = s.stdin ∨ stdin = [] →
      Origin s name (s.source stdin name).1.collect.result
  | lost : Origin s name ⟨name, .error (.lost name)⟩

variable {s : Surroundings} {name : String} {c : Collected} {ms : List Message}

theorem Origin.name_eq (h : s.Origin name c) : c.name = name := by
  cases h with
  | read _ => rw [Source.name_collect, name_source]
  | lost => rfl

/-- Messages are those of a text that was delivered. -/
theorem Origin.text (h : s.Origin name c) (hms : c.messages = .ok ms) :
    ∃ supply stdin text, s.supply name = .ok supply ∧ (stdin = s.stdin ∨ stdin = []) ∧
      Delivery.text (supply.take stdin).1 = .ok text ∧ (Message.ofText text).result = .ok ms := by
  cases h with
  | @read stdin hstdin =>
    unfold source at hms
    cases hsupply : s.supply name with
    | error f => rw [hsupply] at hms; cases hms
    | ok supply =>
      rw [hsupply] at hms
      have hresult : (Message.ofDeliveries (supply.take stdin).1).result = .ok ms := by
        simp only [Source.collect, Logged.map] at hms
        cases hread : (Message.ofDeliveries (supply.take stdin).1).result with
        | error e => rw [hread] at hms; cases hms
        | ok ms' => rw [hread] at hms; cases hms; rfl
      unfold Message.ofDeliveries at hresult
      cases htext : Delivery.text (supply.take stdin).1 with
      | error f => rw [htext] at hresult; cases hresult
      | ok text => rw [htext] at hresult; exact ⟨supply, stdin, text, rfl, hstdin, htext, hresult⟩
  | lost => cases hms

end Surroundings

namespace Pool

variable {s : Surroundings} {names : List String} {p p' : Pool} {m : Move} {ts ts' : List (Indexed Task)}
  {t : Indexed Task} {stdin : List Delivery} {index : Nat} {name : String}

/-- What a task comes from, if it is for an input of the name. -/
inductive Belongs (s : Surroundings) (name : String) : Task → Prop
  | reading : Belongs s name (.reading name)
  | sending {c : Collected} : s.Origin name c → Belongs s name (.sending c)

/-- Each task belongs to the input of its index, and the standard input has been read or not. -/
structure Traced (s : Surroundings) (names : List String) (ts : List (Indexed Task)) (stdin : List Delivery) :
    Prop where
  own : ∀ t ∈ ts, ∃ name, names[t.index]? = some name ∧ Belongs s name t.item
  stdin : stdin = s.stdin ∨ stdin = []

theorem Traced.perm (h : Traced s names ts stdin) (hperm : ts.Perm ts') : Traced s names ts' stdin where
  own t ht := h.own t (hperm.mem_iff.mpr ht)
  stdin := h.stdin

theorem Traced.tail (h : Traced s names (t :: ts) stdin) : Traced s names ts stdin where
  own t ht := h.own t (List.mem_cons_of_mem _ ht)
  stdin := h.stdin

/-- What is read comes from the input that was to be read. -/
theorem Traced.read (h : Traced s names (⟨index, .reading name⟩ :: ts) stdin) :
    Traced s names (⟨index, .sending (s.source stdin name).1.collect.result⟩ :: ts) (s.source stdin name).2 := by
  refine ⟨fun t ht => ?_, ?_⟩
  · rcases List.mem_cons.mp ht with rfl | ht
    · obtain ⟨name', hname, hbelongs⟩ := h.own _ List.mem_cons_self
      cases hbelongs
      exact ⟨name, hname, .sending (.read h.stdin)⟩
    · exact h.tail.own t ht
  · rw [Surroundings.source_left, Surroundings.left]
    split
    · exact .inr rfl
    · exact h.stdin

/-- Each step keeps the tasks with their inputs, however many of these read the standard input. -/
theorem Step.traced (hstep : Step s p m p') (h : Traced s names p.tasks p.stdin) :
    Traced s names p'.tasks p'.stdin := by
  rcases hstep.tasks with ⟨hperm, hstdin⟩ | ⟨index, name, rest, hperm, hperm', hstdin⟩ | ⟨-, t, hperm, hstdin⟩
  · rw [hstdin]; exact h.perm hperm
  · rw [hstdin]; exact (h.perm hperm).read.perm hperm'.symm
  · rw [hstdin]; exact (h.perm hperm).tail

theorem traced_start (s : Surroundings) (jobs : UInt64) (names : List String) :
    Traced s names (start s jobs names).tasks (start s jobs names).stdin := by
  refine ⟨fun t ht => ?_, .inl rfl⟩
  rw [tasks_start] at ht
  obtain ⟨a, ha, rfl⟩ := List.mem_map.mp ht
  exact ⟨a.item, mem_indexed_iff.mp ha, .reading⟩

theorem traced_after (s : Surroundings) (jobs : UInt64) (names : List String) (moves : List Move) :
    Traced s names (after s jobs names moves).tasks (after s jobs names moves).stdin :=
  perform_induction (motive := fun p => Traced s names p.tasks p.stdin) (traced_start s jobs names)
    fun _ _ _ _ h hstep => hstep.traced h

end Pool

/-- **Each result comes from its own input**, whatever the schedule. -/
theorem Surroundings.origin_collectPooled (s : Surroundings) (jobs : UInt64) (names : List String)
    (moves : List Pool.Move) {i : Nat} {c : Collected} (h : (s.collectPooled jobs names moves).result[i]? = some c) :
    ∃ name, names[i]? = some name ∧ s.Origin name c := by
  have htraced := Pool.traced_after s jobs names moves
  have hi : i < names.length := by
    have hlt := (List.getElem?_eq_some_iff.mp h).1
    rwa [collectPooled, Pool.length_collected] at hlt
  have hname : names[i]? = some names[i] := List.getElem?_eq_getElem hi
  refine ⟨names[i], hname, ?_⟩
  cases hslot : (slotted names.length (Pool.after s jobs names moves).channel)[i]? with
  | none =>
    have hlength := List.getElem?_eq_none_iff.mp hslot
    rw [length_slotted] at hlength
    omega
  | some slot =>
    rw [collectPooled, Pool.getElem?_collected hname hslot] at h
    cases slot with
    | none => cases h; exact .lost
    | some c' =>
      obtain rfl : c' = c := Option.some.inj h
      have hsent : (⟨i, .sending c'⟩ : Indexed Task) ∈ (Pool.after s jobs names moves).tasks :=
        List.mem_append_right _ (List.mem_map.mpr ⟨_, exists_arrival_of_slotted hslot, rfl⟩)
      obtain ⟨name, hname', hbelongs⟩ := htraced.own _ hsent
      rw [hname] at hname'
      cases hname'
      cases hbelongs with
      | sending horigin => exact horigin

/-- There is a result for each input, under its name. -/
theorem Surroundings.names_collectPooled (s : Surroundings) (jobs : UInt64) (names : List String)
    (moves : List Pool.Move) : (s.collectPooled jobs names moves).result.map Collected.name = names := by
  refine List.ext_getElem? fun i => ?_
  rw [List.getElem?_map]
  cases hresult : (s.collectPooled jobs names moves).result[i]? with
  | none =>
    have hlength := List.getElem?_eq_none_iff.mp hresult
    rw [collectPooled, Pool.length_collected] at hlength
    exact (List.getElem?_eq_none hlength).symm
  | some c =>
    obtain ⟨name, hname, horigin⟩ := s.origin_collectPooled jobs names moves hresult
    rw [hname, Option.map_some, horigin.name_eq]

end Pinpoint
