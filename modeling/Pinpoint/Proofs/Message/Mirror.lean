import Pinpoint.Proofs.Json.Streams
import Pinpoint.Proofs.Message.Tree
import Pinpoint.Proofs.Message.Ways

/-!
# Messages mirror their diagnostics

The message of a diagnostic is its value again, node for node: at the end of every way of links the tree of a span has a
node exactly where the value has a span, and that node shows that span (`Node.Mirrors`). So both have as many spans, and
the longest way is as long. Text, severity and notes come from the fields of the value (`Message.Mirrors`), and a text
that is accepted gives one such message for each diagnostic in it, in order (`ofText_mirrors`).
-/

namespace Pinpoint

open Json (Value SpellsStream)

/-! ## Nodes -/

namespace Node

/-- The node shows the span of the value, apart from its links: each part comes from the field that is meant for it. -/
structure Shows (severity : Severity) (v : Value) (n : Node) : Prop where
  range : ∃ startLine startColumn stopLine stopColumn,
    v.field? "line_start" 1 = some (.number (.natural startLine)) ∧
    v.field? "column_start" 3 = some (.number (.natural startColumn)) ∧
    v.field? "line_end" 2 = some (.number (.natural stopLine)) ∧
    v.field? "column_end" 4 = some (.number (.natural stopColumn)) ∧
    n.site.range = .between ⟨startLine, startColumn⟩ ⟨stopLine, stopColumn⟩
  isPrimary : n.isPrimary = ((v.filled? "is_primary" 5).bind Value.flag?).getD true
  path : n.site.path = SourcePath.ofFileName ((v.filled? "file_name" 0).bind Value.text?)
  label : n.site.label = ((v.filled? "label" 6).bind Value.text?).filter (· ≠ "")
  severity : n.site.severity = if n.isPrimary then severity else .info

/-- The node mirrors the span of the value with all spans that it is linked to. -/
structure Mirrors (severity : Severity) (v : Value) (n : Node) : Prop where
  shows : ∀ way, Option.Rel (Shows severity) (v.reached? way) (n.reached? way)
  size : {way | (v.reached? way).isSome}.ncard = n.size
  depth : IsGreatest (List.length '' {way | (v.reached? way).isSome}) n.depth

/-- The node is that of the span that the value is read as. -/
def IsRead (severity : Severity) (v : Value) (n : Node) : Prop := ∃ s, Span.ofJson v = .ok s ∧ n = ofSpan severity s

variable {severity : Severity} {v : Value} {n : Node}

theorem IsRead.shows (h : IsRead severity v n) : Shows severity v n := by
  obtain ⟨s, hs, rfl⟩ := h
  have hreading := Span.ofJson_eq_ok_iff.mp hs
  obtain ⟨b, hb, hprimary⟩ := hreading.isPrimary
  rw [ofSpan_eq]
  refine ⟨⟨_, _, _, _, hreading.startLine.eq_word, hreading.startColumn.eq_word, hreading.stopLine.eq_word,
    hreading.stopColumn.eq_word, rfl⟩, ?_, ?_, ?_, rfl⟩
  · rw [Value.filled?, flag?_of_optional hb, hprimary]
  · rw [Value.filled?, text?_of_optional hreading.fileName]
  · rw [Value.filled?, text?_of_optional hreading.label]

/-- One link further the node is again that of the span. -/
theorem IsRead.linked (h : IsRead severity v n) (l : Link) :
    Option.Rel (IsRead severity) (v.linked? l) (n.linked? l) := by
  obtain ⟨s, hs, rfl⟩ := h
  have hlinked : (ofSpan severity s).linked? l = (s.linked? l).map (ofSpan severity) := by
    rw [ofSpan_eq]
    cases l <;> rfl
  have hspan := Span.ofJson_linked hs l
  rw [hlinked]
  generalize v.linked? l = w?, s.linked? l = t? at hspan ⊢
  cases hspan with
  | none => exact .none
  | some ht => exact .some ⟨_, ht, rfl⟩

/-- So it is at the end of every way. -/
theorem IsRead.reached (h : IsRead severity v n) (way : List Link) :
    Option.Rel (IsRead severity) (v.reached? way) (n.reached? way) := by
  induction way generalizing v n with
  | nil => exact .some h
  | cons l way ih =>
    have hlinked := h.linked l
    rw [Value.reached?, reached?]
    generalize v.linked? l = w?, n.linked? l = m? at hlinked ⊢
    cases hlinked with
    | none => exact .none
    | some hm => exact ih hm

theorem IsRead.mirrors (h : IsRead severity v n) : Mirrors severity v n := by
  have hway : ∀ way, Option.Rel (Shows severity) (v.reached? way) (n.reached? way) := fun way =>
    rel_imp (fun _ _ hm => hm.shows) (h.reached way)
  have hset : {way | (v.reached? way).isSome} = {way | (n.reached? way).isSome} := by
    ext way
    have hread := hway way
    rw [Set.mem_ofPred_eq, Set.mem_ofPred_eq]
    generalize v.reached? way = w?, n.reached? way = m? at hread ⊢
    cases hread <;> simp
  exact ⟨hway, by rw [hset, n.ncard_ways], by rw [hset]; exact n.isGreatest_depth⟩

end Node

/-! ## Notes -/

/-- The note that the value of a child makes: its message, if its level is one that annotates. -/
def Child.written? (v : Value) : Option String :=
  match (v.filled? "level" 1).bind Value.text?, (v.filled? "message" 0).bind Value.text? with
  | some level, some message =>
    if level = "note" ∨ level = "help" ∨ level = "failure-note" then some message else none
  | _, _ => none

theorem Child.note?_of_ofJson {v : Value} {c : Child} (h : ofJson v = .ok c) : c.note? = written? v := by
  have hreading := Child.ofJson_eq_ok_iff.mp h
  rw [written?, Value.filled?, text?_of_optional hreading.level, Value.filled?, text?_of_optional hreading.message,
    note?]
  cases c.level with
  | none => rfl
  | some level =>
    cases c.message with
    | none => rfl
    | some message => simp only [isNoteLevel, decide_eq_true_eq]

/-! ## Messages -/

/-- The value that should be a diagnostic, unless the record is skipped. -/
def Record.payload? (v : Value) : Option Value :=
  match ofJson v with
  | .skipped _ => none
  | .diagnostic w => some w

namespace Message

/-- The message mirrors the value of a diagnostic. -/
structure Mirrors (v : Value) (m : Message) : Prop where
  text : v.field? "message" 0 = some (.text m.text)
  severity : ∃ level, v.field? "level" 2 = some (.text level) ∧ m.severity = Severity.ofLevel level
  spans : List.Forall₂ (Node.Mirrors m.severity) (Value.items (v.filled? "spans" 3)) m.spans
  notes : m.notes.getD [] = (Value.items (v.filled? "children" 4)).filterMap Child.written?
  notes_ne : m.notes ≠ some []

/-- The message of a diagnostic mirrors the value that it is read from. -/
theorem ofDiagnostic_mirrors {v : Value} {d : Diagnostic} (h : Diagnostic.ofJson v = .ok d) :
    Mirrors v (ofDiagnostic d) := by
  have hreading := Diagnostic.ofJson_eq_ok_iff.mp h
  obtain ⟨spans, hspans, hspans'⟩ := hreading.spans
  obtain ⟨children, hchildren, hchildren'⟩ := hreading.children
  refine ⟨hreading.message.eq_text, ⟨d.level, hreading.level.eq_text, rfl⟩, ?_, ?_, (ofDiagnostic_sound d).notes⟩
  · show List.Forall₂ _ _ (d.spans.map _)
    rw [List.forall₂_map_right_iff, hspans', Value.filled?]
    exact (items_of_optional hspans).imp fun w s hs => Node.IsRead.mirrors ⟨s, hs, rfl⟩
  · have hitems := items_of_optional hchildren
    rw [← hchildren'] at hitems
    have hnotes : (ofDiagnostic d).notes.getD [] = d.children.filterMap Child.note? := by
      show (Option.filter (· ≠ []) (some (d.children.filterMap Child.note?))).getD [] = _
      rw [Option.filter_some]
      split
      · rfl
      · next hempty => simpa using hempty
    rw [hnotes, Value.filled?]
    generalize Value.items _ = vs at hitems ⊢
    generalize d.children = cs at hitems ⊢
    induction hitems with
    | nil => rfl
    | cons hc _ ih => simp only [List.filterMap_cons, Child.note?_of_ofJson hc, ih]

/-- The messages of values mirror their diagnostics. -/
theorem Gives.mirrors {vs : List Value} {ms : List Message} (h : Gives vs ms) :
    List.Forall₂ Mirrors (vs.filterMap Record.payload?) ms := by
  induction h with
  | nil => exact .nil
  | cons hx _ ih =>
    rcases ofRecord_eq_ok_iff.mp hx with ⟨reason, hv, rfl⟩ | ⟨w, d, hv, hd, rfl⟩
    · rw [List.filterMap_cons, Record.payload?, hv]
      exact ih
    · rw [List.filterMap_cons, Record.payload?, hv]
      exact .cons (ofDiagnostic_mirrors hd) ih

/-- **The messages of a text mirror its diagnostics**, one by one and in order. -/
theorem ofText_mirrors {s : String} {ms : List Message} (h : (ofText s).result = .ok ms) :
    ∃ vs, SpellsStream s.toList vs ∧ List.Forall₂ Mirrors (vs.filterMap Record.payload?) ms := by
  obtain ⟨vs, hvs, hg⟩ := ofText_eq_ok_iff.mp h
  exact ⟨vs, Json.Stream.values?_ofText_iff.mp hvs, hg.mirrors⟩

/-- A place in a macro that another macro made, and a note. -/
theorem ofText_mirrors_macro : ∃ m n,
    (ofText ("[\"m\",null,\"help\"," ++
        "[[null,1,2,3,4,null,null,[[null,9,9,1,2,null,null,[[null,1,1,1,1]]],[null,5,6,7,8]]]]," ++
        "[[\"n\",\"note\"]]]")).result = .ok [m] ∧
      (∃ v, Mirrors v m) ∧ m.notes = some ["n"] ∧ m.spans = [n] ∧ n.size = 4 ∧ n.depth = 2 := by
  have hvalues : (Json.Stream.ofText ("[\"m\",null,\"help\"," ++
      "[[null,1,2,3,4,null,null,[[null,9,9,1,2,null,null,[[null,1,1,1,1]]],[null,5,6,7,8]]]]," ++
      "[[\"n\",\"note\"]]]")).values? =
    some [.list [.text "m", .null, .text "help",
      .list [.list [.null, .number (.natural 1), .number (.natural 2), .number (.natural 3), .number (.natural 4),
        .null, .null, .list [
          .list [.null, .number (.natural 9), .number (.natural 9), .number (.natural 1), .number (.natural 2), .null,
            .null, .list [
              .list [.null, .number (.natural 1), .number (.natural 1), .number (.natural 1), .number (.natural 1)]]],
          .list [.null, .number (.natural 5), .number (.natural 6), .number (.natural 7), .number (.natural 8)]]]],
      .list [.list [.text "n", .text "note"]]]] := by
    set_option maxRecDepth 2000 in
    rfl
  have htext := ofText_eq_ok_iff.mpr ⟨_, hvalues, .cons (x := some _) rfl .nil⟩
  obtain ⟨vs, -, hmirrors⟩ := ofText_mirrors htext
  obtain ⟨v, _, hv, -⟩ := List.forall₂_cons_right_iff.mp hmirrors
  exact ⟨_, _, htext, ⟨v, hv⟩, rfl, rfl, rfl, rfl⟩

end Message

end Pinpoint
