import Mathlib.Data.List.Nodup
import Mathlib.Logic.Relation
import Pinpoint.Proofs.Json.Tree
import Pinpoint.Proofs.Message.Likeness
import Pinpoint.Proofs.Message.Values

/-!
# Drift of the schema

The order of the members of an object means nothing, and neither do members that the part does not know. `Part.Drift` is
one change of that kind somewhere inside a value, on the value as it is written; no number of such changes, there and
back, changes the result of a text, but for the offset of an error (`ofText_drifted`). Both texts are streams of the
grammar: a numeral too large for a binary number and half a surrogate pair are faults of syntax, like an open bracket,
and such a fault is told by its line and column.
-/

namespace Pinpoint

open Json (Value Tree SpellsText Writes WritesStream)

/-! ## Changes -/

/-- One change: the members of an object change places, a member that is ignored is added, or a part changes. -/
inductive Part.Drift : Part → Tree → Tree → Prop
  | permuted {p : Part} {ms ms' : List (String × Tree)} : (ms.map Prod.fst).Nodup → ms.Perm ms' →
      Drift p (.object ms) (.object ms')
  | added {p : Part} {key : String} {t : Tree} {ms₁ ms₂ : List (String × Tree)} : p.Ignores key →
      Drift p (.object (ms₁ ++ ms₂)) (.object (ms₁ ++ (key, t) :: ms₂))
  | member {p : Part} {key : String} {t t' : Tree} {ms₁ ms₂ : List (String × Tree)} : Drift (p.member key) t t' →
      Drift p (.object (ms₁ ++ (key, t) :: ms₂)) (.object (ms₁ ++ (key, t') :: ms₂))
  | item {p : Part} {t t' : Tree} {ts₁ ts₂ : List Tree} : Drift (p.item ts₁.length) t t' →
      Drift p (.list (ts₁ ++ t :: ts₂)) (.list (ts₁ ++ t' :: ts₂))

/-! ## Members -/

/-- With each key at most once, the order does not matter. -/
theorem lookup_eq_of_perm {α : Type} {ms ms' : List (String × α)} (hnodup : (ms.map Prod.fst).Nodup) (h : ms.Perm ms')
    (name : String) : ms.lookup name = ms'.lookup name := by
  have hnodup' : (ms'.map Prod.fst).Nodup := (h.map Prod.fst).nodup_iff.mp hnodup
  refine Option.ext fun a => ?_
  rw [lookup_eq_some_iff_mem hnodup, lookup_eq_some_iff_mem hnodup', h.mem_iff]

namespace Json.Tree

theorem lookup_collect_perm {ms ms' : List (String × Tree)} (hnodup : (ms.map Prod.fst).Nodup) (h : ms.Perm ms')
    (name : String) : (collect [] ms).lookup name = (collect [] ms').lookup name := by
  have hreverse : ms.reverse.Perm ms'.reverse := ((List.reverse_perm ms).trans h).trans (List.reverse_perm ms').symm
  have hnodup' : (ms.reverse.map Prod.fst).Nodup := by rwa [List.map_reverse, List.nodup_reverse]
  rw [lookup_collect, lookup_collect, lookup_eq_of_perm hnodup' hreverse]

/-- A member is found by its key, unless a later one has the same key. -/
theorem lookup_collect_middle (ms₁ ms₂ : List (String × Tree)) (key : String) (t : Tree) (name : String) :
    (collect [] (ms₁ ++ (key, t) :: ms₂)).lookup name =
      ((ms₂.reverse.lookup name).map value).or (if name = key then some t.value else (collect [] ms₁).lookup name) := by
  rw [collect_append, collect, lookup_collect, Value.lookup_insert]

end Json.Tree

/-! ## Changes of values -/

namespace Part

open Json.Tree (lookup_collect lookup_collect_perm lookup_collect_middle collect_append)

theorem rel_refl (p : Part) (a : Option Value) : Option.Rel p.Alike a a := by
  cases a with
  | none => exact .none
  | some v => exact .some (.refl p v)

/-- **A change leaves a value alike.** -/
theorem Drift.alike {p : Part} {t t' : Tree} (h : p.Drift t t') : p.Alike t.value t'.value := by
  induction h with
  | permuted hnodup hperm =>
    refine (PartsAlike.object fun place name q _ => ?_).alike
    rw [lookup_collect_perm hnodup hperm]
    exact rel_refl q _
  | added hignores =>
    refine (PartsAlike.object fun place name q hq => ?_).alike
    rw [lookup_collect_middle, if_neg (hignores.ne_field hq), collect_append, lookup_collect]
    exact rel_refl q _
  | @member p key t t' ms₁ ms₂ _ ih =>
    refine (PartsAlike.object fun place name q hq => ?_).alike
    rw [lookup_collect_middle, lookup_collect_middle]
    cases ms₂.reverse.lookup name with
    -- A later member of this key hides the change.
    | some u => exact rel_refl q _
    | none =>
      by_cases hname : name = key
      · subst hname
        rw [member_of_field hq] at ih
        rw [if_pos rfl, if_pos rfl]
        exact .some ih
      · rw [if_neg hname, if_neg hname]
        exact rel_refl q _
  | @item p t t' ts₁ ts₂ _ ih =>
    refine PartsAlike.alike ?_
    simp only [Tree.value, Tree.values_eq, List.map_append, List.map_cons]
    refine .list (by simp) fun place => ?_
    rw [List.getElem?_append, List.getElem?_append, List.length_map]
    split
    · exact rel_refl _ _
    · rw [List.getElem?_cons, List.getElem?_cons]
      split
      · obtain rfl : place = ts₁.length := by omega
        exact .some ih
      · exact rel_refl _ _

end Part

/-! ## Streams -/

/-- Each value of the second stream comes from the one of the first by changes and by changes undone. -/
def Drifted : List Tree → List Tree → Prop := List.Forall₂ (Relation.EqvGen Part.record.Drift)

namespace Message

/-- What more values come to depends on what the first of them comes to and on what the others come to. -/
theorem told_cons (v : Value) (vs : List Value) :
    told (v :: vs) =
      match outcome (ofRecord v), told vs with
      | .error text, _ => .error (some 1, text)
      | .ok _, .error (r, text) => .error (r.map (· + 1), text)
      | .ok x, .ok ms => .ok (x.toList ++ ms) := by
  unfold told
  cases hv : ofRecord v with
  | error m => rw [ofValues_cons_error hv]; rfl
  | ok x =>
    rw [ofValues_cons_ok hv]
    cases ofValues vs <;> rfl

theorem told_eq_of_forall₂ {vs ws : List Value}
    (h : List.Forall₂ (fun v w => outcome (ofRecord v) = outcome (ofRecord w)) vs ws) : told vs = told ws := by
  induction h with
  | nil => rfl
  | cons hvw _ ih => rw [told_cons, told_cons, hvw, ih]

theorem outcome_of_drift {t t' : Tree} (h : Relation.EqvGen Part.record.Drift t t') :
    outcome (ofRecord t.value) = outcome (ofRecord t'.value) := by
  induction h with
  | rel t t' h => exact h.alike.reads
  | refl t => rfl
  | symm t t' _ ih => exact ih.symm
  | trans t t' t'' _ _ ih ih' => exact ih.trans ih'

/-- **Drift of the schema does not show.** Two texts whose values differ in the order of members and in members that
are ignored give the same messages, or are refused at the same record for the same reason. -/
theorem ofText_drifted {s s' : String} {ts ts' : List Tree} (hs : WritesStream s.toList ts)
    (hs' : WritesStream s'.toList ts') (h : Drifted ts ts') :
    (ofText s).result.mapError ParseError.blame = (ofText s').result.mapError ParseError.blame := by
  have hrecords : List.Forall₂ (fun v w => outcome (ofRecord v) = outcome (ofRecord w)) (ts.map Tree.value)
      (ts'.map Tree.value) := by
    rw [List.forall₂_map_left_iff, List.forall₂_map_right_iff]
    exact h.imp fun _ _ => outcome_of_drift
  rw [blame_ofText (Json.spellsStream_iff.mpr ⟨ts, hs, rfl⟩), blame_ofText (Json.spellsStream_iff.mpr ⟨ts', hs', rfl⟩),
    told_eq_of_forall₂ hrecords]

/-- A note whose members change places, with a member that is ignored before them. -/
theorem ofText_drifted_note :
    (ofText "\x7b\"message\":\"m\",\"level\":\"note\"\x7d").result.mapError ParseError.blame =
      (ofText "\x7b\"x\":[],\"level\":\"note\",\"message\":\"m\"\x7d").result.mapError ParseError.blame := by
  have hm : Writes 126 _ (.leaf (.text "m")) := .leaf (.text (.plain (by simp)))
  have hnote : Writes 126 _ (.leaf (.text "note")) := .leaf (.text (.plain (by simp)))
  have hmessage : SpellsText _ "message" := .plain (by simp)
  have hlevel : SpellsText _ "level" := .plain (by simp)
  have hx : SpellsText _ "x" := .plain (by simp)
  have hs := WritesStream.tree .nil (.object (.more (.one .nil hmessage .nil .nil hm .nil)
    .nil hlevel .nil .nil hnote .nil)) nofun (.done .nil)
  have hs' := WritesStream.tree .nil (.object (.more (.more (.one .nil hx .nil .nil (.emptyList .nil) .nil)
    .nil hlevel .nil .nil hnote .nil) .nil hmessage .nil .nil hm .nil)) nofun (.done .nil)
  have hpermuted : Part.record.Drift (.object [("message", .leaf (.text "m")), ("level", .leaf (.text "note"))])
      (.object [("level", .leaf (.text "note")), ("message", .leaf (.text "m"))]) :=
    .permuted (by decide) (.swap _ _ _)
  have hadded : Part.record.Drift (.object [("level", .leaf (.text "note")), ("message", .leaf (.text "m"))])
      (.object [("x", .list []), ("level", .leaf (.text "note")), ("message", .leaf (.text "m"))]) :=
    @Part.Drift.added .record _ _ [] _ (by simp [Part.Ignores, Part.fields])
  exact ofText_drifted hs hs' (.cons (.trans _ _ _ (.rel _ _ hpermuted) (.rel _ _ hadded)) .nil)

end Message

end Pinpoint
