import Pinpoint.Problem.Json
import Pinpoint.Proofs.Message.Records
import Pinpoint.Proofs.Source.Ranges

/-!
# The trees of accepted messages

Whatever the numbers, labels and file names of a diagnostic, the message made of it is sound: its ranges count from one
and run forwards, its empty parts are absent, and no pseudo file is named, at every node that its spans lead to
(`ofText_sound`). Each part is put right by a function of its own, and a tree is made of nodes that all come from spans.
-/

namespace Pinpoint

open Json (Value)

/-! ## Paths -/

namespace SourcePath

/-- A pseudo file is named between angle brackets. -/
theorem isPseudo_iff {name : String} : isPseudo name = true ↔ ∃ inner : String, name = "<" ++ inner ++ ">" := by
  unfold isPseudo
  constructor
  · intro h
    simp only [Bool.and_eq_true, beq_iff_eq] at h
    obtain ⟨hhead, hlast⟩ := h
    obtain ⟨rest, hrest⟩ := List.head?_eq_some_iff.mp hhead
    obtain ⟨init, hinit⟩ := List.getLast?_eq_some_iff.mp hlast
    rw [hrest] at hinit
    cases init with
    | nil => cases hinit
    | cons c inner =>
      cases hinit
      refine ⟨String.ofList inner, String.toList_inj.mp ?_⟩
      rw [hrest]
      simp
  · rintro ⟨inner, rfl⟩
    have hname : ("<" ++ inner ++ ">").toList = '<' :: inner.toList ++ ['>'] := by simp
    rw [hname, List.getLast?_concat]
    rfl

/-- No path is that of a pseudo file. -/
theorem isPseudo_ofFileName (name : Option String) : isPseudo (ofFileName name) = false := by
  cases name with
  | none => rfl
  | some name =>
    show isPseudo (if isPseudo name then internal else name) = false
    split
    · rfl
    · next h => simpa using h

end SourcePath

/-! ## Nodes -/

/-- What is dropped is not left. -/
theorem filter_ne_some {α : Type} [DecidableEq α] (o : Option α) (a : α) : o.filter (· ≠ a) ≠ some a := by
  intro h
  simpa using (Option.filter_eq_some_iff.mp h).2

namespace Node

/-- The second node is the first one, or can be reached from it by links to invocations and definitions. -/
inductive Reaches : Node → Node → Prop
  | refl (n : Node) : Reaches n n
  | invocation {n m k : Node} : n.invocation = some m → Reaches m k → Reaches n k
  | definition {n m k : Node} : n.definition = some m → Reaches m k → Reaches n k

/-- A node as it should be in a message of the severity. -/
structure Sound (severity : Severity) (n : Node) : Prop where
  range : n.site.range.Sound
  label : n.site.label ≠ some ""
  path : ∀ inner : String, n.site.path ≠ "<" ++ inner ++ ">"
  severity : n.site.severity = if n.isPrimary then severity else .info

/-- What becomes of each field of a span. -/
theorem ofSpan_eq (severity : Severity) (s : Span) :
    ofSpan severity s =
      { site :=
          { path := SourcePath.ofFileName s.fileName
            range := .between s.start s.stop
            severity := if s.isPrimary then severity else .info
            label := s.label.filter (· ≠ "") }
        isPrimary := s.isPrimary
        invocation := s.invocation.map (ofSpan severity)
        definition := s.definition.map (ofSpan severity) } := by
  obtain ⟨fileName, start, stop, isPrimary, label, invocation, definition⟩ := s
  cases invocation <;> cases definition <;> rfl

/-- The node of a span is sound. -/
theorem ofSpan_sound (severity : Severity) (s : Span) : (ofSpan severity s).Sound severity := by
  rw [ofSpan_eq]
  refine ⟨SourceRange.between_sound s.start s.stop, filter_ne_some s.label "", fun inner hpath => ?_, rfl⟩
  have hpseudo := SourcePath.isPseudo_iff.mpr ⟨inner, hpath⟩
  exact absurd hpseudo (by rw [SourcePath.isPseudo_ofFileName]; nofun)

/-- All nodes that the node of a span leads to are nodes of spans. -/
theorem Reaches.exists_span {severity : Severity} {n k : Node} (h : n.Reaches k) :
    (∃ s, n = ofSpan severity s) → ∃ t, k = ofSpan severity t := by
  induction h with
  | refl n => exact id
  | invocation hlink _ ih =>
    rintro ⟨s, rfl⟩
    rw [ofSpan_eq] at hlink
    obtain ⟨t, -, ht⟩ := Option.map_eq_some_iff.mp hlink
    exact ih ⟨t, ht.symm⟩
  | definition hlink _ ih =>
    rintro ⟨s, rfl⟩
    rw [ofSpan_eq] at hlink
    obtain ⟨t, -, ht⟩ := Option.map_eq_some_iff.mp hlink
    exact ih ⟨t, ht.symm⟩

end Node

/-! ## Messages -/

namespace Message

/-- A message as it should be. -/
structure Sound (m : Message) : Prop where
  path : m.heading.path = ""
  range : m.heading.range = ⟨⟨1, 1⟩, ⟨1, 1⟩⟩
  code : m.code ≠ some ""
  notes : m.notes ≠ some []
  spans : ∀ n ∈ m.spans, ∀ k, n.Reaches k → k.Sound m.severity

/-- The message of a diagnostic is sound. -/
theorem ofDiagnostic_sound (d : Diagnostic) : (ofDiagnostic d).Sound := by
  refine ⟨rfl, rfl, filter_ne_some d.code.name? "", ?_, fun n hn k hk => ?_⟩
  · exact filter_ne_some (some (d.children.filterMap Child.note?)) []
  · obtain ⟨s, -, hs⟩ := List.mem_map.mp hn
    obtain ⟨t, rfl⟩ := hk.exists_span ⟨s, hs.symm⟩
    exact Node.ofSpan_sound _ t

/-- The messages of a stream are made of diagnostics. -/
theorem Gives.exists_diagnostic {vs : List Value} {ms : List Message} (h : Gives vs ms) :
    ∀ m ∈ ms, ∃ d, m = ofDiagnostic d := by
  induction h with
  | nil => nofun
  | cons hx _ ih =>
    intro m hm
    rcases List.mem_append.mp hm with hm | hm
    · rcases ofRecord_eq_ok_iff.mp hx with ⟨_, -, rfl⟩ | ⟨_, d, -, -, rfl⟩
      · cases hm
      · exact ⟨d, List.mem_singleton.mp hm⟩
    · exact ih m hm

/-- **Every message of an accepted text is sound**, at all nodes of its trees. -/
theorem ofText_sound {s : String} {ms : List Message} (h : (ofText s).result = .ok ms) : ∀ m ∈ ms, m.Sound := by
  obtain ⟨vs, -, hg⟩ := ofText_eq_ok_iff.mp h
  intro m hm
  obtain ⟨d, rfl⟩ := hg.exists_diagnostic m hm
  exact ofDiagnostic_sound d

/-- A place in a pseudo file and the reversed range where its macro was invoked. -/
theorem ofText_sound_invocation : ∃ m n k,
    (ofText "[\"m\",null,\"error\",[[\"<anon>\",0,5,0,1,false,\"\",[[\"a.rs\",9,9,3,2]]]]]").result = .ok [m] ∧
      m.spans = [n] ∧ n.invocation = some k ∧ n.Sound .error ∧ k.Sound .error := by
  have hvalues : (Json.Stream.ofText
      "[\"m\",null,\"error\",[[\"<anon>\",0,5,0,1,false,\"\",[[\"a.rs\",9,9,3,2]]]]]").values? =
    some [.list [.text "m", .null, .text "error", .list [.list [.text "<anon>", .number (.natural 0),
      .number (.natural 5), .number (.natural 0), .number (.natural 1), .bool false, .text "", .list [.list [
        .text "a.rs", .number (.natural 9), .number (.natural 9), .number (.natural 3), .number (.natural 2)]]]]]] :=
    rfl
  have htext := ofText_eq_ok_iff.mpr ⟨_, hvalues, .cons (x := some _) rfl .nil⟩
  have hspans := (ofText_sound htext _ List.mem_cons_self).spans _ List.mem_cons_self
  exact ⟨_, _, _, htext, rfl, rfl, hspans _ (.refl _), hspans _ (.invocation rfl (.refl _))⟩

end Message

end Pinpoint
