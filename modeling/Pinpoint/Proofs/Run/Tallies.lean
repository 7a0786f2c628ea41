import Pinpoint.Proofs.Message.Depth
import Pinpoint.Proofs.Problem.Flattening
import Pinpoint.Run

/-!
# Tallies of diagnostics

The tally of messages counts their problems by severity, and these come from the spans of the diagnostics: each primary
span has a problem of the severity of its diagnostic, each secondary one a problem for information, and so has each
invocation that a primary span shows (`Message.count_problems`). So the tally can be told from the values of the
diagnostics without reading them (`tallyOf_sums`).
-/

namespace Pinpoint

open Json (Value)

namespace Tally

/-! ## Counting -/

theorem count_foldl_add (t : Tally) (ss : List Severity) (s : Severity) :
    (ss.foldl add t).count s = t.count s + ss.count s := by
  induction ss generalizing t with
  | nil => rfl
  | cons s' ss ih =>
    rw [List.foldl_cons, ih, count_add, List.count_cons, Nat.add_assoc]
    congr 1
    rw [Nat.add_comm]
    simp only [beq_iff_eq]

theorem count_ofList (ss : List Severity) (s : Severity) : (ofList ss).count s = ss.count s := by
  have hempty : empty.count s = 0 := by cases s <;> rfl
  rw [ofList, count_foldl_add, hempty, Nat.zero_add]

theorem total_ofList (ss : List Severity) : (ofList ss).total = ss.length := by
  suffices h : ∀ t : Tally, (ss.foldl add t).total = t.total + ss.length by
    rw [ofList, h, empty]
    exact Nat.zero_add _
  induction ss with
  | nil => exact fun t => rfl
  | cons s ss ih =>
    intro t
    rw [List.foldl_cons, ih, total_add, List.length_cons]
    omega

end Tally

/-! ## Spans and diagnostics as values -/

namespace Json.Value

/-- The spans of a diagnostic, without those of macros. -/
def spans (d : Value) : List Value := items (d.filled? "spans" 3)

/-- A span is primary unless it says otherwise. -/
def isPrimary (v : Value) : Bool := ((v.filled? "is_primary" 5).bind flag?).getD true

/-- A primary span with the place where its macro was invoked. -/
def isInvoked (v : Value) : Bool := v.isPrimary && (v.linked? .invocation).isSome

/-- The severity of a diagnostic, by its level. -/
def severity? (d : Value) : Option Severity := ((d.field? "level" 2).bind text?).map Severity.ofLevel

/-- The diagnostic has this severity. -/
def hasSeverity (s : Severity) (d : Value) : Bool := d.severity? == some s

def primaries (d : Value) : Nat := d.spans.countP isPrimary

def secondaries (d : Value) : Nat := d.spans.countP fun v => !v.isPrimary

def invocations (d : Value) : Nat := d.spans.countP isInvoked

end Json.Value

/-- The tally counts the spans of the diagnostics: the primary ones under the severity of their diagnostic, and the
secondary ones and the invocations for information. -/
structure Tally.Sums (t : Tally) (ds : List Value) : Prop where
  other : ∀ s, s ≠ .info → t.count s = ((ds.filter (Value.hasSeverity s)).map Value.primaries).sum
  infos : t.infos = (ds.map Value.secondaries).sum + (ds.map Value.invocations).sum +
    ((ds.filter (Value.hasSeverity .info)).map Value.primaries).sum

/-! ## Messages -/

namespace Message

/-- The severities of the problems of a span whose severity was chosen with that of its message. -/
theorem count_spanProblems {m : Message} {n : Node}
    (hn : n.site.severity = if n.isPrimary then m.severity else .info) (s : Severity) :
    ((m.spanProblems n).map Problem.severity).count s = (if m.severity = s then if n.isPrimary then 1 else 0 else 0) +
      if .info = s then (if n.isPrimary then 0 else 1) + (if n.isInvoked then 1 else 0) else 0 := by
  cases hprimary : n.isPrimary with
  | false =>
    have hinvoked : n.isInvoked = false := by rw [Node.isInvoked, hprimary, Bool.false_and]
    have hproblems : m.spanProblems n = [⟨n.site.path, n.site.range, .info, n.site.label.getD ""⟩] := by
      rw [hprimary] at hn
      rw [spanProblems, spanProblem_of_secondary hprimary, hn]
      simp [invocationProblem?, hprimary]
    rw [hproblems, hinvoked]
    cases s <;> simp
  | true =>
    cases hcall : n.invocation with
    | none =>
      have hinvoked : n.isInvoked = false := by rw [Node.isInvoked, hcall, Option.isSome_none, Bool.and_false]
      have hseverities : (m.spanProblems n).map Problem.severity = [m.severity] := by
        rw [spanProblems, spanProblem_of_primary hprimary]
        simp [invocationProblem?, hprimary, hcall]
      rw [hseverities, hinvoked]
      by_cases hs : m.severity = s <;> simp [hs]
    | some call =>
      have hinvoked : n.isInvoked = true := by rw [Node.isInvoked, hprimary, hcall]; rfl
      have hseverities : (m.spanProblems n).map Problem.severity = [m.severity, .info] := by
        rw [spanProblems_of_invoked hprimary hcall, spanProblem_of_primary hprimary]
        rfl
      rw [hseverities, hinvoked, List.count_cons, List.count_singleton]
      simp only [beq_iff_eq, if_true, Nat.zero_add, Nat.add_comm]

/-- So the problems of a message count its spans. -/
theorem count_problems {m : Message}
    (h : ∀ n ∈ m.spans, n.site.severity = if n.isPrimary then m.severity else .info) (s : Severity) :
    (m.problems.map Problem.severity).count s = (if m.severity = s then m.spans.countP Node.isPrimary else 0) +
      if .info = s then (m.spans.countP fun n => !n.isPrimary) + m.spans.countP Node.isInvoked else 0 := by
  suffices hspans : ∀ ns : List Node, (∀ n ∈ ns, n.site.severity = if n.isPrimary then m.severity else .info) →
      ((ns.flatMap m.spanProblems).map Problem.severity).count s =
        (if m.severity = s then ns.countP Node.isPrimary else 0) +
          if .info = s then (ns.countP fun n => !n.isPrimary) + ns.countP Node.isInvoked else 0 from
    hspans m.spans h
  intro ns hns
  induction ns with
  | nil => simp
  | cons n ns ih =>
    have hrest := ih fun k hk => hns k (List.mem_cons_of_mem n hk)
    rw [List.flatMap_cons, List.map_append, List.count_append, hrest, count_spanProblems (hns n List.mem_cons_self),
      List.countP_cons, List.countP_cons, List.countP_cons]
    cases n.isPrimary with
    | true =>
      simp only [Bool.not_true, Bool.false_eq_true, if_true, if_false]
      split_ifs <;> omega
    | false =>
      simp only [Bool.not_false, Bool.false_eq_true, if_true, if_false]
      split_ifs <;> omega

/-- What is told from each item alone is counted alike. -/
theorem countP_eq_of_forall₂ {α β : Type} {r : α → β → Prop} {p : α → Bool} {q : β → Bool}
    (h : ∀ a b, r a b → p a = q b) {as : List α} {bs : List β} (hab : List.Forall₂ r as bs) :
    as.countP p = bs.countP q := by
  induction hab with
  | nil => rfl
  | cons hr _ ih => rw [List.countP_cons, List.countP_cons, ih, h _ _ hr]

end Message

/-- A node that mirrors a span shows the span itself. -/
theorem Node.Mirrors.self {severity : Severity} {v : Value} {n : Node} (h : n.Mirrors severity v) :
    n.Shows severity v := by
  cases h.shows [] with
  | some hshows => exact hshows

theorem Node.Mirrors.isInvoked_eq {severity : Severity} {v : Value} {n : Node} (h : n.Mirrors severity v) :
    v.isInvoked = n.isInvoked := by
  have hprimary : v.isPrimary = n.isPrimary := h.self.isPrimary.symm
  have hlink := h.shows [.invocation]
  have hreached : v.reached? [.invocation] = v.linked? .invocation := Option.bind_fun_some _
  have hreached' : n.reached? [.invocation] = n.invocation := Option.bind_fun_some _
  rw [hreached, hreached'] at hlink
  rw [Value.isInvoked, hprimary, Node.isInvoked]
  generalize v.linked? .invocation = w?, n.invocation = k? at hlink ⊢
  cases hlink <;> rfl

namespace Message.Mirrors

variable {d : Value} {m : Message}

theorem severity?_eq (h : m.Mirrors d) : d.severity? = some m.severity := by
  obtain ⟨level, hlevel, hseverity⟩ := h.severity
  rw [Value.severity?, hlevel, hseverity]
  rfl

theorem primaries_eq (h : m.Mirrors d) : d.primaries = m.spans.countP Node.isPrimary :=
  countP_eq_of_forall₂ (fun _ _ hn => hn.self.isPrimary.symm) h.spans

theorem secondaries_eq (h : m.Mirrors d) : d.secondaries = m.spans.countP fun n => !n.isPrimary :=
  countP_eq_of_forall₂ (fun _ _ hn => congrArg (!·) hn.self.isPrimary.symm) h.spans

theorem invocations_eq (h : m.Mirrors d) : d.invocations = m.spans.countP Node.isInvoked :=
  countP_eq_of_forall₂ (fun _ _ hn => hn.isInvoked_eq) h.spans

/-- The severities of spans are those that were chosen for them. -/
theorem severity_spans (h : m.Mirrors d) :
    ∀ n ∈ m.spans, n.site.severity = if n.isPrimary then m.severity else .info := by
  intro n hn
  obtain ⟨v, -, hmirrors⟩ := exists_left_of_mem h.spans n hn
  exact hmirrors.self.severity

end Message.Mirrors

/-! ## Lists of messages -/

/-- The problems of a severity, told from the values of the diagnostics. -/
theorem count_tallyOf {ds : List Value} {ms : List Message} (h : List.Forall₂ Message.Mirrors ds ms) (s : Severity) :
    (tallyOf ms).count s = ((ds.filter (Value.hasSeverity s)).map Value.primaries).sum +
      if .info = s then (ds.map Value.secondaries).sum + (ds.map Value.invocations).sum else 0 := by
  rw [tallyOf, Tally.count_ofList]
  induction h with
  | nil => simp [problemsOf]
  | @cons d m ds ms hm _ ih =>
    have hfirst := Message.count_problems hm.severity_spans s
    rw [← hm.primaries_eq, ← hm.secondaries_eq, ← hm.invocations_eq] at hfirst
    have hfilter : (((d :: ds).filter (Value.hasSeverity s)).map Value.primaries).sum =
        (if m.severity = s then d.primaries else 0) + ((ds.filter (Value.hasSeverity s)).map Value.primaries).sum := by
      have hseverity : d.hasSeverity s = decide (m.severity = s) := by
        rw [Value.hasSeverity, hm.severity?_eq]
        by_cases hs : m.severity = s <;> simp [hs]
      by_cases hs : m.severity = s
      · rw [List.filter_cons_of_pos (by simp [hseverity, hs]), List.map_cons, List.sum_cons, if_pos hs]
      · rw [List.filter_cons_of_neg (by simp [hseverity, hs]), if_neg hs, Nat.zero_add]
    rw [problemsOf, List.flatMap_cons, List.map_append, List.count_append, hfirst, hfilter]
    rw [problemsOf] at ih
    rw [ih, List.map_cons, List.sum_cons, List.map_cons, List.sum_cons]
    split_ifs <;> omega

/-- **The tally of messages sums up their diagnostics.** -/
theorem tallyOf_sums {ds : List Value} {ms : List Message} (h : List.Forall₂ Message.Mirrors ds ms) :
    (tallyOf ms).Sums ds where
  other s hs := by
    have hcount := count_tallyOf h s
    rwa [if_neg (Ne.symm hs), Nat.add_zero] at hcount
  infos := by
    have hcount := count_tallyOf h .info
    rw [if_pos rfl, Nat.add_comm] at hcount
    exact hcount

/-- It counts each problem once. -/
theorem total_tallyOf (ms : List Message) : (tallyOf ms).total = (problemsOf ms).length := by
  rw [tallyOf, Tally.total_ofList, List.length_map]

end Pinpoint
