import Mathlib.Data.List.Forall2
import Mathlib.Data.Option.Basic
import Pinpoint.Proofs.Problem.Flattening

/-!
# What shows in the problems of a message

Of the tree of a span its problems show the place and the label of the span, and, where it is primary, the place at
which its macro was invoked. So messages that agree in this, in their texts and in what is not empty of their codes and
notes have the same problems, however else their trees differ (`Message.problems_of_agree`).
-/

namespace Pinpoint

/-! ## What spans agree in -/

/-- The places are the same. -/
def Site.SamePlace (s s' : Site) : Prop := s.path = s'.path ∧ s.range = s'.range

/-- The spans agree in all that their problems show. Only a secondary one shows its severity, and only a primary one
whether a macro made it and where that was invoked. An empty label is none. -/
structure Node.Agrees (n n' : Node) : Prop where
  place : n.site.SamePlace n'.site
  isPrimary : n.isPrimary = n'.isPrimary
  label : n.site.label.getD "" = n'.site.label.getD ""
  severity : n.isPrimary = false → n.site.severity = n'.site.severity
  invocation : n.isPrimary = true → Option.Rel (fun k k' => k.site.SamePlace k'.site) n.invocation n'.invocation

/-- The messages agree in all that their problems show. An empty code is none, and an empty list of notes too. -/
structure Message.Agrees (m m' : Message) : Prop where
  text : m.text = m'.text
  severity : m.severity = m'.severity
  code : m.code.getD "" = m'.code.getD ""
  notes : m.notes.getD [] = m'.notes.getD []
  spans : List.Forall₂ Node.Agrees m.spans m'.spans

/-- The second tree is the first one with something else in a part that does not show. -/
inductive Node.Recast : Node → Node → Prop
  /-- Where the macro was defined, and all that hangs below. -/
  | definition {site : Site} {isPrimary : Bool} {invocation definition definition' : Option Node} :
      Recast ⟨site, isPrimary, invocation, definition⟩ ⟨site, isPrimary, invocation, definition'⟩
  /-- Where the macro of a secondary span was invoked. -/
  | secondary {site : Site} {invocation invocation' definition : Option Node} :
      Recast ⟨site, false, invocation, definition⟩ ⟨site, false, invocation', definition⟩
  /-- All but the place where the macro was invoked: its severity and label, and what hangs below. -/
  | invocation {site : Site} {call call' : Node} {definition : Option Node} : call.site.SamePlace call'.site →
      Recast ⟨site, true, some call, definition⟩ ⟨site, true, some call', definition⟩
  /-- The severity that a primary span keeps. -/
  | severity {path : String} {range : SourceRange} {severity severity' : Severity} {label : Option String}
      {invocation definition : Option Node} :
      Recast ⟨⟨path, range, severity, label⟩, true, invocation, definition⟩
        ⟨⟨path, range, severity', label⟩, true, invocation, definition⟩

namespace Node

variable {n n' : Node}

theorem Agrees.refl (n : Node) : n.Agrees n where
  place := ⟨rfl, rfl⟩
  isPrimary := rfl
  label := rfl
  severity _ := rfl
  invocation _ := by
    cases n.invocation with
    | none => exact .none
    | some k => exact .some ⟨rfl, rfl⟩

/-- A part that does not show is nothing to agree in. -/
theorem Recast.agrees (h : n.Recast n') : n.Agrees n' := by
  have hsame := Agrees.refl n
  cases h with
  | definition => exact ⟨⟨rfl, rfl⟩, rfl, rfl, fun _ => rfl, hsame.invocation⟩
  | secondary => exact ⟨⟨rfl, rfl⟩, rfl, rfl, fun _ => rfl, fun hprimary => absurd hprimary Bool.false_ne_true⟩
  | invocation hplace => exact ⟨⟨rfl, rfl⟩, rfl, rfl, fun _ => rfl, fun _ => .some hplace⟩
  | severity =>
    exact ⟨⟨rfl, rfl⟩, rfl, rfl, fun hsecondary => absurd hsecondary.symm Bool.false_ne_true, hsame.invocation⟩

end Node

/-! ## What problems show -/

namespace Message

variable {m m' : Message} {n n' : Node}

/-- The text that the problems of primary spans share is made of what the messages agree in. -/
theorem Agrees.headerWithNotes (h : m.Agrees m') : m.headerWithNotes = m'.headerWithNotes := by
  rw [headerWithNotes_eq, headerWithNotes_eq, header_eq, header_eq, h.text, h.code, h.notes]

/-- Spans that agree have the same problems. -/
theorem Agrees.spanProblems (h : m.Agrees m') (hn : n.Agrees n') : m.spanProblems n = m'.spanProblems n' := by
  obtain ⟨hpath, hrange⟩ := hn.place
  have hsame := hn.isPrimary
  have hline : n.site.labelLine = n'.site.labelLine := by simp only [Site.labelLine, hn.label]
  cases hprimary : n.isPrimary with
  | false =>
    have hprimary' : n'.isPrimary = false := by rw [← hsame, hprimary]
    have hnone : m.invocationProblem? n = none := by simp [invocationProblem?, hprimary]
    have hnone' : m'.invocationProblem? n' = none := by simp [invocationProblem?, hprimary']
    rw [Message.spanProblems, Message.spanProblems, spanProblem_of_secondary hprimary,
      spanProblem_of_secondary hprimary', hnone, hnone', hpath, hrange, hn.severity hprimary, hn.label]
  | true =>
    have hprimary' : n'.isPrimary = true := by rw [← hsame, hprimary]
    have hfirst : m.spanProblem n = m'.spanProblem n' := by
      rw [spanProblem_of_primary hprimary, spanProblem_of_primary hprimary', hpath, hrange, h.severity,
        h.headerWithNotes, hline]
    have hsecond : m.invocationProblem? n = m'.invocationProblem? n' := by
      have hcall := hn.invocation hprimary
      simp only [invocationProblem?, hprimary, hprimary']
      generalize n.invocation = call, n'.invocation = call' at hcall ⊢
      cases hcall with
      | none => rfl
      | some hplace =>
        obtain ⟨hpath, hrange⟩ := hplace
        simp only [hpath, hrange, h.headerWithNotes]
    rw [Message.spanProblems, Message.spanProblems, hfirst, hsecond]

theorem Agrees.flatMap_spanProblems (h : m.Agrees m') {ns ns' : List Node} (hns : List.Forall₂ Node.Agrees ns ns') :
    ns.flatMap m.spanProblems = ns'.flatMap m'.spanProblems := by
  induction hns with
  | nil => rfl
  | cons hn _ ih => rw [List.flatMap_cons, List.flatMap_cons, h.spanProblems hn, ih]

/-- **All that the problems of a message show.** Messages that agree in text and severity, in code and notes unless they
are empty, and, span by span, in places, labels and the severities of secondary spans have the same problems, if the
macros of their primary spans were invoked at the same places. So nothing else shows: not where macros were defined, not
what hangs below the place where one was invoked, no macro of a secondary span, and not the severity that a primary span
keeps. -/
theorem problems_of_agree :
    (∀ m m' : Message, m.Agrees m' → m.problems = m'.problems) ∧
    ∀ (m : Message) (before after : List Node) (n n' : Node), n.Recast n' →
      { m with spans := before ++ n :: after }.problems = { m with spans := before ++ n' :: after }.problems := by
  have hagree : ∀ m m' : Message, m.Agrees m' → m.problems = m'.problems := by
    intro m m' h
    exact h.flatMap_spanProblems h.spans
  refine ⟨hagree, fun m before after n n' hn => ?_⟩
  apply hagree
  refine ⟨rfl, rfl, rfl, rfl, ?_⟩
  have hrefl : ∀ ns : List Node, List.Forall₂ Node.Agrees ns ns := fun ns => List.forall₂_same.mpr fun k _ => .refl k
  exact List.rel_append (hrefl before) (.cons hn.agrees (hrefl after))

/-- A primary span with another severity and an invocation of another depth, and a secondary one that a macro made only
the second time; the code and the notes are first empty and then absent. -/
theorem problems_of_agree_deeper : ∃ m m' : Message,
    m.Agrees m' ∧ m.code ≠ m'.code ∧ m.notes ≠ m'.notes ∧ m.spans.map Node.depth = [1, 0] ∧
      m'.spans.map Node.depth = [2, 1] ∧ m.problems = m'.problems := by
  let site (path : String) (severity : Severity) (label : Option String) : Site := ⟨path, .placeholder, severity, label⟩
  let m : Message := ⟨"boom", .warning, some "", some [],
    [⟨site "a.rs" .error none, true, some (.leaf (site "b.rs" .help (some "there"))), none⟩,
      ⟨site "c.rs" .help (some ""), false, none, none⟩]⟩
  let m' : Message := ⟨"boom", .warning, none, none,
    [⟨site "a.rs" .info (some ""), true,
        some ⟨site "b.rs" .error none, false, none, some (.leaf (site "d.rs" .error none))⟩, none⟩,
      ⟨site "c.rs" .help none, false, some (.leaf (site "e.rs" .error none)), none⟩]⟩
  have hfirst : Node.Agrees m.spans[0] m'.spans[0] :=
    ⟨⟨rfl, rfl⟩, rfl, rfl, fun hsecondary => absurd hsecondary (by decide), fun _ => .some ⟨rfl, rfl⟩⟩
  have hsecond : Node.Agrees m.spans[1] m'.spans[1] :=
    ⟨⟨rfl, rfl⟩, rfl, rfl, fun _ => rfl, fun hprimary => absurd hprimary (by decide)⟩
  have hagrees : m.Agrees m' := ⟨rfl, rfl, rfl, rfl, .cons hfirst (.cons hsecond .nil)⟩
  exact ⟨m, m', hagrees, by decide, by decide, rfl, rfl, problems_of_agree.1 m m' hagrees⟩

end Message

end Pinpoint
