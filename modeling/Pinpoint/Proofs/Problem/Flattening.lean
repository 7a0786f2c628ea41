import Pinpoint.Problem.Basic

/-!
# The problems of a message

Each span of a message has a problem, and a primary span that a macro made has a second one right behind it. So before
the problem of a span there are as many as there are spans before it, and one more for each primary one of these that a
macro made (`Node.position`). A list of problems of which this is said is the list of those of the message
(`Message.problems_flattened`).
-/

namespace Pinpoint

/-! ## The layout of problems -/

/-- A primary place that a macro made. -/
def Node.isInvoked (n : Node) : Bool := n.isPrimary && n.invocation.isSome

/-- Where the problem of a span stands. -/
def Node.position (spans : List Node) (i : Nat) : Nat := i + (spans.take i).countP isInvoked

/-- What a label adds to a text: a line, unless it is empty. -/
def Site.labelLine (s : Site) : String := if s.label.getD "" = "" then "" else "\n" ++ s.label.getD ""

namespace Message

/-- There is one problem for each span and one more for each primary span that a macro made. The problem of a span
stands at its position. It is at the place of the span: that of a primary one has the severity of the message and, after
the header and the notes, the label, that of any other has its own severity and the label alone. Behind the problem of a
primary span that a macro made comes one at the invocation of the macro, with the same text but for the label. -/
structure Flattened (m : Message) (ps : List Problem) : Prop where
  length : ps.length = m.spans.length + m.spans.countP Node.isInvoked
  primary {i : Nat} {n : Node} : m.spans[i]? = some n → n.isPrimary = true →
    ps[Node.position m.spans i]? = some ⟨n.site.path, n.site.range, m.severity, m.headerWithNotes ++ n.site.labelLine⟩
  secondary {i : Nat} {n : Node} : m.spans[i]? = some n → n.isPrimary = false →
    ps[Node.position m.spans i]? = some ⟨n.site.path, n.site.range, n.site.severity, n.site.label.getD ""⟩
  invoked {i : Nat} {n call : Node} : m.spans[i]? = some n → n.isPrimary = true → n.invocation = some call →
    ∃ p text, ps[Node.position m.spans i]? = some p ∧ p.text = text ++ n.site.labelLine ∧
      ps[Node.position m.spans i + 1]? = some ⟨call.site.path, call.site.range, .info, text⟩

/-! ## Texts -/

variable {m : Message} {n call : Node} {ns : List Node} {i k : Nat}

/-- The code is in the header unless it is empty. -/
theorem header_eq (m : Message) :
    m.header = m.text ++ (if m.code.getD "" = "" then "" else " [" ++ m.code.getD "" ++ "]") ++ ":" := by
  unfold header
  cases m.code with
  | none => simp
  | some code =>
    by_cases hcode : code = ""
    · simp [hcode]
    · simp [hcode, String.append_assoc]

/-- Each note is a line below the header. -/
theorem headerWithNotes_eq (m : Message) :
    m.headerWithNotes = m.header ++ String.join ((m.notes.getD []).map ("\n" ++ ·)) := by
  unfold headerWithNotes
  generalize m.header = text
  generalize m.notes.getD [] = notes
  induction notes generalizing text with
  | nil => simp
  | cons note notes ih =>
    rw [List.foldl_cons, ih, List.map_cons, String.join_cons]
    simp only [String.append_assoc]

/-! ## The problems of one span -/

/-- The problem of a span, and the one at the invocation of its macro. -/
def spanProblems (m : Message) (n : Node) : List Problem := m.spanProblem n :: (m.invocationProblem? n).toList

theorem spanProblem_of_primary (h : n.isPrimary = true) :
    m.spanProblem n = ⟨n.site.path, n.site.range, m.severity, m.headerWithNotes ++ n.site.labelLine⟩ := by
  unfold spanProblem Site.caption? Site.labelLine
  cases n.site.label with
  | none => simp [h]
  | some label => by_cases hlabel : label = "" <;> simp [h, hlabel, Option.filter, String.append_assoc]

theorem spanProblem_of_secondary (h : n.isPrimary = false) :
    m.spanProblem n = ⟨n.site.path, n.site.range, n.site.severity, n.site.label.getD ""⟩ := by
  unfold spanProblem Site.caption?
  cases n.site.label with
  | none => simp [h]
  | some label => by_cases hlabel : label = "" <;> simp [h, hlabel, Option.filter]

theorem spanProblems_of_invoked (h : n.isPrimary = true) (hcall : n.invocation = some call) :
    m.spanProblems n = [m.spanProblem n, ⟨call.site.path, call.site.range, .info, m.headerWithNotes⟩] := by
  simp [spanProblems, invocationProblem?, h, hcall]

theorem length_spanProblems (m : Message) (n : Node) :
    (m.spanProblems n).length = 1 + if n.isInvoked then 1 else 0 := by
  unfold spanProblems invocationProblem?
  cases hprimary : n.isPrimary <;> cases hcall : n.invocation <;> simp [Node.isInvoked, hprimary, hcall]

/-! ## Positions -/

theorem position_succ (n : Node) (ns : List Node) (i : Nat) :
    Node.position (n :: ns) (i + 1) = 1 + (if n.isInvoked then 1 else 0) + Node.position ns i := by
  rw [Node.position, Node.position, List.take_succ_cons, List.countP_cons]
  omega

theorem length_flatMap_spanProblems (m : Message) (ns : List Node) :
    (ns.flatMap m.spanProblems).length = ns.length + ns.countP Node.isInvoked := by
  induction ns with
  | nil => rfl
  | cons n ns ih =>
    rw [List.flatMap_cons, List.length_append, length_spanProblems, ih, List.length_cons, List.countP_cons]
    omega

/-- At the position of a span its problems begin. -/
theorem getElem?_flatMap_spanProblems {p : Problem} (hn : ns[i]? = some n) (hp : (m.spanProblems n)[k]? = some p) :
    (ns.flatMap m.spanProblems)[Node.position ns i + k]? = some p := by
  induction ns generalizing i with
  | nil => cases hn
  | cons n' ns ih =>
    rw [List.flatMap_cons]
    cases i with
    | zero =>
      cases hn
      have hk : k < (m.spanProblems n).length := (List.getElem?_eq_some_iff.mp hp).1
      rw [Node.position, List.take_zero, List.countP_nil, Nat.zero_add, List.getElem?_append_left hk, hp]
    | succ i =>
      rw [position_succ, ← length_spanProblems m, Nat.add_assoc, List.getElem?_append_right (Nat.le_add_right _ _),
        Nat.add_sub_cancel_left]
      exact ih hn

/-- Every place is the position of a span, or the one behind that of a primary span that a macro made. -/
theorem exists_position (hk : k < ns.length + ns.countP Node.isInvoked) :
    ∃ i n, ns[i]? = some n ∧ (k = Node.position ns i ∨ n.isInvoked = true ∧ k = Node.position ns i + 1) := by
  induction ns generalizing k with
  | nil => cases hk
  | cons n ns ih =>
    rw [List.length_cons, List.countP_cons] at hk
    by_cases hfirst : k < 1 + if n.isInvoked then 1 else 0
    · refine ⟨0, n, rfl, ?_⟩
      rw [Node.position, List.take_zero, List.countP_nil]
      split at hfirst
      · next hinvoked => exact (Nat.le_one_iff_eq_zero_or_eq_one.mp (by omega)).imp_right fun hk => ⟨hinvoked, hk⟩
      · exact .inl (by omega)
    · obtain ⟨i, n', hn', hk'⟩ := ih (k := k - (1 + if n.isInvoked then 1 else 0)) (by omega)
      refine ⟨i + 1, n', hn', ?_⟩
      rw [position_succ]
      exact hk'.imp (by omega) fun ⟨hinvoked, hk'⟩ => ⟨hinvoked, by omega⟩

/-! ## The problems of a message -/

/-- The problems of a message are laid out as they should. -/
theorem flattened_problems (m : Message) : m.Flattened m.problems := by
  have hfirst {i : Nat} {n : Node} (hn : m.spans[i]? = some n) :
      m.problems[Node.position m.spans i]? = some (m.spanProblem n) := getElem?_flatMap_spanProblems (k := 0) hn rfl
  refine ⟨length_flatMap_spanProblems m m.spans, fun hn hprimary => ?_, fun hn hsecondary => ?_,
    fun hn hprimary hcall => ⟨_, m.headerWithNotes, hfirst hn, ?_, ?_⟩⟩
  · rw [hfirst hn, spanProblem_of_primary hprimary]
  · rw [hfirst hn, spanProblem_of_secondary hsecondary]
  · rw [spanProblem_of_primary hprimary]
  · exact getElem?_flatMap_spanProblems (k := 1) hn (by rw [spanProblems_of_invoked hprimary hcall]; rfl)

/-- Only one list is laid out like this. -/
theorem Flattened.unique {ps ps' : List Problem} (h : m.Flattened ps) (h' : m.Flattened ps') : ps = ps' := by
  refine List.ext_getElem? fun k => ?_
  by_cases hk : k < m.spans.length + m.spans.countP Node.isInvoked
  · obtain ⟨i, n, hn, rfl | ⟨hinvoked, rfl⟩⟩ := exists_position hk
    · cases hprimary : n.isPrimary with
      | true => rw [h.primary hn hprimary, h'.primary hn hprimary]
      | false => rw [h.secondary hn hprimary, h'.secondary hn hprimary]
    · simp only [Node.isInvoked, Bool.and_eq_true, Option.isSome_iff_exists] at hinvoked
      obtain ⟨hprimary, call, hcall⟩ := hinvoked
      obtain ⟨p, text, hp, htext, hcalled⟩ := h.invoked hn hprimary hcall
      obtain ⟨p', text', hp', htext', hcalled'⟩ := h'.invoked hn hprimary hcall
      rw [h.primary hn hprimary] at hp
      rw [h'.primary hn hprimary] at hp'
      cases hp
      cases hp'
      have hsame : text = text' := (String.append_left_inj _).mp (htext.symm.trans htext')
      rw [hcalled, hcalled', hsame]
  · rw [List.getElem?_eq_none (by rw [h.length]; omega), List.getElem?_eq_none (by rw [h'.length]; omega)]

/-- **Nothing is lost, added or out of order.** The problems of a message are the one list that has, for each of its
spans, a problem at its position and, for each primary span that a macro made, one more right behind that. The text that
these share is the header, with the code unless that is empty, and a line for each note. The problems of several
messages are those of each, one after the other. -/
theorem problems_flattened (m : Message) (ms : List Message) :
    (∀ ps, m.Flattened ps ↔ ps = m.problems) ∧
    m.headerWithNotes = m.text ++ (if m.code.getD "" = "" then "" else " [" ++ m.code.getD "" ++ "]") ++ ":" ++
      String.join ((m.notes.getD []).map ("\n" ++ ·)) ∧
    problemsOf ms = (ms.map problems).flatten := by
  refine ⟨fun ps => ⟨fun h => h.unique m.flattened_problems, fun h => h ▸ m.flattened_problems⟩, ?_, List.flatMap_def⟩
  rw [headerWithNotes_eq, header_eq]

/-- A secondary span before a primary one that a macro made. -/
example (r : SourceRange) :
    problems ⟨"boom", .warning, some "", some ["n"],
      [⟨⟨"a.rs", r, .help, some ""⟩, false, none, none⟩,
        ⟨⟨"b.rs", r, .error, some "here"⟩, true, some (.leaf ⟨"c.rs", r, .error, some "there"⟩), none⟩]⟩ =
      [⟨"a.rs", r, .help, ""⟩, ⟨"b.rs", r, .warning, "boom:\nn\nhere"⟩, ⟨"c.rs", r, .info, "boom:\nn"⟩] := rfl

end Message

end Pinpoint
