import Pinpoint.Input.Pool

/-!
# Slots

Whatever the order in which results arrive, each one is found in the slot of its index (`getElem?_slotted`), and the
slots of indices for which nothing arrived are empty (`getElem?_slotted_of_missing`). So a pool gives one result for
each input, in the order of the inputs (`Pool.getElem?_collected`).
-/

namespace Pinpoint

variable {α : Type} {arrivals : List (Indexed α)} {count : Nat}

/-! ## Arrivals -/

theorem length_slotted (count : Nat) (arrivals : List (Indexed α)) : (slotted count arrivals).length = count := by
  suffices h : ∀ slots : List (Option α),
      (arrivals.foldl (fun slots a => slots.set a.index (some a.item)) slots).length = slots.length by
    rw [slotted, h, List.length_replicate]
  induction arrivals with
  | nil => exact fun _ => rfl
  | cons a arrivals ih => intro slots; rw [List.foldl_cons, ih, List.length_set]

/-- What arrives for other indices leaves a slot as it is. -/
theorem getElem?_foldl_set {i : Nat} (hi : ∀ a ∈ arrivals, a.index ≠ i) (slots : List (Option α)) :
    (arrivals.foldl (fun slots a => slots.set a.index (some a.item)) slots)[i]? = slots[i]? := by
  induction arrivals generalizing slots with
  | nil => rfl
  | cons a arrivals ih =>
    rw [List.foldl_cons, ih (fun b hb => hi b (List.mem_cons_of_mem _ hb)),
      List.getElem?_set_ne (hi a List.mem_cons_self)]

/-- The slot of an index for which nothing arrived is empty. -/
theorem getElem?_slotted_of_missing {i : Nat} (hlt : i < count) (hi : ∀ a ∈ arrivals, a.index ≠ i) :
    (slotted count arrivals)[i]? = some none := by
  rw [slotted, getElem?_foldl_set hi, List.getElem?_replicate, if_pos hlt]

/-- Each arrival is in the slot of its index, if no other came for it. -/
theorem getElem?_slotted (hnodup : (arrivals.map Indexed.index).Nodup) {a : Indexed α} (ha : a ∈ arrivals)
    (hlt : a.index < count) : (slotted count arrivals)[a.index]? = some (some a.item) := by
  suffices h : ∀ slots : List (Option α), a.index < slots.length →
      (arrivals.foldl (fun slots a => slots.set a.index (some a.item)) slots)[a.index]? = some (some a.item) from
    h _ (by rwa [List.length_replicate])
  induction arrivals with
  | nil => cases ha
  | cons b arrivals ih =>
    intro slots hslots
    rw [List.map_cons, List.nodup_cons] at hnodup
    rw [List.foldl_cons]
    rcases List.mem_cons.mp ha with rfl | ha
    · have hothers : ∀ b ∈ arrivals, b.index ≠ a.index := fun b hb heq =>
        hnodup.1 (heq ▸ List.mem_map_of_mem hb)
      rw [getElem?_foldl_set hothers, List.getElem?_set_self hslots]
    · exact ih hnodup.2 ha _ (by rwa [List.length_set])

/-! ## Items with their indices -/

theorem map_index_indexed (items : List α) : (indexed items).map Indexed.index = List.range items.length := by
  rw [indexed, List.map_map, List.range_eq_range', ← List.zipIdx_map_snd 0 items]
  rfl

theorem mem_indexed_iff {items : List α} {a : Indexed α} : a ∈ indexed items ↔ items[a.index]? = some a.item := by
  rw [indexed, List.mem_map]
  constructor
  · rintro ⟨⟨item, index⟩, hmem, rfl⟩
    exact List.mem_zipIdx_iff_getElem?.mp hmem
  · exact fun h => ⟨(a.item, a.index), List.mem_zipIdx_iff_getElem?.mpr h, rfl⟩

/-- Items that arrive in order fill the slots in order. -/
theorem slotted_indexed (items : List α) : slotted items.length (indexed items) = items.map some := by
  have hnodup : ((indexed items).map Indexed.index).Nodup := by rw [map_index_indexed]; exact List.nodup_range
  refine List.ext_getElem? fun i => ?_
  by_cases hi : i < items.length
  · have hmem : (⟨i, items[i]⟩ : Indexed α) ∈ indexed items := mem_indexed_iff.mpr (List.getElem?_eq_getElem hi)
    rw [getElem?_slotted hnodup hmem hi, List.getElem?_map, List.getElem?_eq_getElem hi]
    rfl
  · rw [List.getElem?_eq_none (by rw [length_slotted]; omega), List.getElem?_eq_none (by simpa using hi)]

/-! ## Results -/

namespace Pool

theorem length_collected (p : Pool) (names : List String) : (p.collected names).result.length = names.length := by
  simp [collected, length_slotted]

/-- The result for an input is what is in its slot, or an error. -/
theorem getElem?_collected {p : Pool} {names : List String} {i : Nat} {name : String} {slot : Option Collected}
    (hname : names[i]? = some name) (hslot : (slotted names.length p.channel)[i]? = some slot) :
    (p.collected names).result[i]? = some (slot.getD ⟨name, .error (.lost name)⟩) := by
  have hzip : ((slotted names.length p.channel).zip names)[i]? = some (slot, name) :=
    List.getElem?_zip_eq_some.mpr ⟨hslot, hname⟩
  simp [collected, hzip]

/-- Results that were sent in order come out in order. -/
theorem collected_of_indexed {p : Pool} {names : List String} {cs : List Collected} (hlength : cs.length = names.length)
    (hchannel : p.channel = indexed cs) : (p.collected names).result = cs := by
  refine List.ext_getElem? fun i => ?_
  cases hname : names[i]? with
  | none =>
    have hi := List.getElem?_eq_none_iff.mp hname
    rw [List.getElem?_eq_none (by rwa [length_collected]), List.getElem?_eq_none (by rwa [hlength])]
  | some name =>
    have hi : i < cs.length := hlength ▸ (List.getElem?_eq_some_iff.mp hname).1
    have hslot : (slotted names.length p.channel)[i]? = some (some cs[i]) := by
      rw [hchannel, ← hlength, slotted_indexed, List.getElem?_map, List.getElem?_eq_getElem hi]
      rfl
    rw [getElem?_collected hname hslot, List.getElem?_eq_getElem hi]
    rfl

end Pool

end Pinpoint
