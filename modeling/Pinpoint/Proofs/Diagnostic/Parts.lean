import Pinpoint.Proofs.Diagnostic.Fields

/-!
# Parts of records

Which parts a record is made of: each has fields, which are found by their names in an object and by their places in a
list, and which are parts in their turn. Any other member of an object is ignored.
-/

namespace Pinpoint

open Json (Value)

/-- The parts of a record. -/
inductive Part where
  /-- A value of the stream: a diagnostic, or an envelope around one. -/
  | record
  /-- The message of an envelope. -/
  | diagnostic
  | span
  | expansion
  | child
  | code
  | list (item : Part)
  /-- A value with no parts. -/
  | plain
  deriving DecidableEq, Repr

namespace Part

/-- The fields of a part, in the order of their places, and the parts that they are. -/
def fields : Part → List (String × Part)
  | .record => [("message", .diagnostic), ("code", .code), ("level", .plain), ("spans", .list .span),
      ("children", .list .child), ("reason", .plain)]
  | .diagnostic => [("message", .plain), ("code", .code), ("level", .plain), ("spans", .list .span),
      ("children", .list .child)]
  | .span => [("file_name", .plain), ("line_start", .plain), ("line_end", .plain), ("column_start", .plain),
      ("column_end", .plain), ("is_primary", .plain), ("label", .plain), ("expansion", .expansion)]
  | .expansion => [("span", .span), ("def_site_span", .span)]
  | .child => [("message", .plain), ("level", .plain)]
  | .code => [("code", .plain)]
  | .list _ | .plain => []

/-- The part that a member of an object is. -/
def member (p : Part) (name : String) : Part := (p.fields.lookup name).getD .plain

/-- The part that an item of a list is. -/
def item : Part → Nat → Part
  | .list p, _ => p
  | p, place => ((p.fields[place]?).map Prod.snd).getD .plain

/-- A member of this name means nothing to the part. -/
def Ignores : Part → String → Prop
  | .list _, _ | .plain, _ => False
  | p, name => name ∉ p.fields.map Prod.fst

theorem nodup_fields (p : Part) : (p.fields.map Prod.fst).Nodup := by
  cases p with
  | list p => exact List.nodup_nil
  | record | diagnostic | span | expansion | child | code | plain => decide

end Part

/-- With each key at most once, what is found is what is there. -/
theorem lookup_eq_some_iff_mem {α : Type} {ms : List (String × α)} (h : (ms.map Prod.fst).Nodup) {name : String}
    {a : α} : ms.lookup name = some a ↔ (name, a) ∈ ms := by
  rw [List.lookup_eq_some_iff]
  constructor
  · rintro ⟨ms₁, ms₂, rfl, -⟩
    exact List.mem_append_right _ List.mem_cons_self
  · intro hmem
    obtain ⟨ms₁, ms₂, rfl⟩ := List.append_of_mem hmem
    rw [List.map_append, List.map_cons, List.nodup_append] at h
    refine ⟨ms₁, ms₂, rfl, fun m hm => bne_iff_ne.mpr fun hname => ?_⟩
    exact h.2.2 m.1 (List.mem_map_of_mem hm) name List.mem_cons_self hname.symm

/-- Each field is the member of its name. -/
theorem Part.member_of_field {p q : Part} {place : Nat} {name : String} (h : p.fields[place]? = some (name, q)) :
    p.member name = q := by
  rw [Part.member, (lookup_eq_some_iff_mem p.nodup_fields).mpr (List.mem_of_getElem? h)]
  rfl

/-- No field is ignored. -/
theorem Part.Ignores.ne_field {p q : Part} {key name : String} {place : Nat} (h : p.Ignores key)
    (hfield : p.fields[place]? = some (name, q)) : name ≠ key := by
  rintro rfl
  have hname : name ∈ p.fields.map Prod.fst := List.mem_map_of_mem (List.mem_of_getElem? hfield)
  cases p with
  | list p | plain => exact h
  | record | diagnostic | span | expansion | child | code => exact h hname

end Pinpoint
