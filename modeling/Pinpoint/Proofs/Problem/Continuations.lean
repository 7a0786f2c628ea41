import Mathlib.Data.List.SplitBy
import Pinpoint.Proofs.Problem.Lines

/-!
# Plain text cut back into problems

The plain form of a problem shows its text with the lines after the first one indented (`rows_eq`). So among the lines
of an output those that are not indented are the first lines of problems (`starts_iff`), as long as no path looks like
an indentation or has a line feed. The output is cut back into problems before each of them (`cutLines_flatten`), and
without the indentations the lines of a problem are its line again (`unindent_rows`). The main result is
`plain_restored`.
-/

namespace Pinpoint

/-! ## Lines that go on -/

/-- What stands before the lines after the first. -/
def indentation : List Char := [' ', ' ', ' ', ' ']

/-- The line goes on with what the line before it began. -/
def continues (line : List Char) : Bool := indentation.isPrefixOf line

theorem continues_append (line : List Char) : continues (indentation ++ line) = true :=
  List.isPrefixOf_iff_prefix.mpr (List.prefix_append indentation line)

/-- Lines of which the first one begins something and the others go on with it. -/
def IsBlock (lines : List (List Char)) : Prop :=
  ∃ first rest, lines = first :: rest ∧ continues first = false ∧ ∀ line ∈ rest, continues line = true

/-- The lines, cut before each one that does not go on with the line before it. -/
def cutLines (lines : List (List Char)) : List (List (List Char)) := lines.splitBy fun _ line => continues line

/-- The text of the lines, those after the first one without their indentation. -/
def unindent : List (List Char) → List Char
  | [] => []
  | first :: rest => ['\n'].intercalate (first :: rest.map (List.drop indentation.length))

/-- Blocks can be told apart by their first lines. -/
theorem cutLines_flatten {blocks : List (List (List Char))} (h : ∀ b ∈ blocks, IsBlock b) :
    cutLines blocks.flatten = blocks := by
  refine List.splitBy_flatten ?_ ?_ ?_
  · intro hnil
    obtain ⟨first, rest, heq, -⟩ := h [] hnil
    cases heq
  · intro b hb
    obtain ⟨first, rest, rfl, -, hrest⟩ := h b hb
    refine (List.pairwise_cons.mpr ⟨hrest, ?_⟩).isChain
    exact List.pairwise_of_forall_mem_list fun _ _ line hline => hrest line hline
  · refine (List.pairwise_of_forall_mem_list fun a ha b hb => ?_).isChain
    obtain ⟨first, rest, rfl, -⟩ := h a ha
    obtain ⟨first', rest', rfl, hfirst', -⟩ := h b hb
    exact ⟨List.cons_ne_nil first rest, List.cons_ne_nil first' rest', hfirst'⟩

/-- **A line is the first one of a block exactly if it does not go on.** -/
theorem starts_iff {blocks : List (List (List Char))} (h : ∀ b ∈ blocks, IsBlock b) {i : Nat} {line : List Char}
    (hline : blocks.flatten[i]? = some line) :
    (∃ k < blocks.length, i = (blocks.take k).flatten.length) ↔ continues line = false := by
  induction blocks generalizing i with
  | nil => cases hline
  | cons b blocks ih =>
    obtain ⟨first, rest, rfl, hfirst, hrest⟩ := h b List.mem_cons_self
    rw [List.flatten_cons] at hline
    rcases Nat.lt_or_ge i (first :: rest).length with hi | hi
    · rw [List.getElem?_append_left hi] at hline
      cases i with
      | zero =>
        cases hline
        exact iff_of_true ⟨0, Nat.succ_pos _, rfl⟩ hfirst
      | succ i =>
        rw [List.getElem?_cons_succ] at hline
        have hgoes : continues line = true := hrest line (List.mem_of_getElem? hline)
        refine iff_of_false ?_ (by rw [hgoes]; decide)
        rintro ⟨k, -, hk⟩
        -- The first block has no other first line, and the blocks after it start later.
        cases k with
        | zero => cases hk
        | succ k =>
          rw [List.take_succ_cons, List.flatten_cons, List.length_append] at hk
          omega
    · rw [List.getElem?_append_right hi] at hline
      rw [← ih (fun b hb => h b (List.mem_cons_of_mem _ hb)) hline]
      constructor
      · rintro ⟨k, hk, rfl⟩
        cases k with
        | zero => exact absurd hi (by simp)
        | succ k =>
          rw [List.length_cons] at hk
          refine ⟨k, by omega, ?_⟩
          rw [List.take_succ_cons, List.flatten_cons, List.length_append]
          omega
      · rintro ⟨k, hk, hstart⟩
        refine ⟨k + 1, by rw [List.length_cons]; omega, ?_⟩
        rw [List.take_succ_cons, List.flatten_cons, List.length_append]
        omega

/-! ## One problem -/

/-- Whatever stands before a text, an indentation for each of its line feeds stands before the lines after its first. -/
theorem splitOn_indented {front : List Char} (cs : List Char) (h : '\n' ∉ front) :
    ∃ first rest, cs.splitOn '\n' = first :: rest ∧
      (front ++ cs.flatMap fun c => if c = '\n' then '\n' :: indentation else [c]).splitOn '\n' =
        (front ++ first) :: rest.map (indentation ++ ·) := by
  induction cs generalizing front with
  | nil =>
    refine ⟨[], [], rfl, ?_⟩
    rw [List.flatMap_nil, List.append_nil, List.splitOn_eq_singleton h]
    rfl
  | cons c cs ih =>
    by_cases hc : c = '\n'
    · subst hc
      have hindentation : '\n' ∉ indentation := by decide
      obtain ⟨first, rest, hcs, hindented⟩ := ih hindentation
      refine ⟨[], first :: rest, ?_, ?_⟩
      · rw [List.splitOn_cons_eq_if_modifyHead, hcs]
        rfl
      · rw [List.flatMap_cons, if_pos rfl, List.cons_append, List.splitOn_append_cons_self_of_not_mem h, hindented,
          List.append_nil]
        rfl
    · have hlonger : '\n' ∉ front ++ [c] := by
        rw [List.mem_append, List.mem_singleton]
        rintro (hfront | rfl)
        · exact h hfront
        · exact hc rfl
      obtain ⟨first, rest, hcs, hindented⟩ := ih hlonger
      refine ⟨c :: first, rest, ?_, ?_⟩
      · rw [List.splitOn_cons_eq_if_modifyHead, hcs]
        simp [hc]
      · rw [List.flatMap_cons, if_neg hc, ← List.append_assoc, hindented, List.append_assoc, List.singleton_append]

/-- What begins with something that has no such character begins with it before the first such character. -/
theorem prefix_of_prefix_append_cons {α : Type} {p u w : List α} {c : α} (hc : c ∉ p) (h : p <+: u ++ c :: w) :
    p <+: u := by
  induction p generalizing u with
  | nil => exact List.nil_prefix
  | cons x p ih =>
    cases u with
    | nil =>
      obtain ⟨rfl, -⟩ := List.cons_prefix_cons.mp h
      exact absurd List.mem_cons_self hc
    | cons y u =>
      obtain ⟨rfl, hp⟩ := List.cons_prefix_cons.mp h
      exact List.cons_prefix_cons.mpr ⟨rfl, ih (fun hmem => hc (List.mem_cons_of_mem _ hmem)) hp⟩

/-- The path has no line feed, and does not look like an indentation. -/
def SourcePath.IsLegible (path : String) : Prop := '\n' ∉ path.toList ∧ ¬indentation <+: path.toList

instance (path : String) : Decidable (SourcePath.IsLegible path) := inferInstanceAs (Decidable (_ ∧ _))

theorem SourcePath.isLegible_display {path : String} (h : IsLegible path) : IsLegible (display path) := by
  unfold display
  split
  · decide
  · exact h

/-- No line feed is in the digits of a position. -/
theorem Position.not_mem_text (p : Position) : '\n' ∉ p.text.toList := by
  have hrepr : ∀ n : Nat, '\n' ∉ n.repr.toList := by
    intro n hmem
    rw [Nat.toList_repr] at hmem
    exact Json.noControls_toDigits n '\n' hmem (by decide)
  have hcolon : '\n' ∉ ":".toList := by decide
  rw [text, String.toList_append, String.toList_append, List.mem_append, List.mem_append]
  rintro ((hline | hmem) | hcolumn)
  · exact hrepr _ hline
  · exact hcolon hmem
  · exact hrepr _ hcolumn

/-- The severity as it is shown. -/
def Severity.shown (s : Severity) (color : Bool) : String := if color then s.colored else s.name

theorem Severity.not_mem_shown (s : Severity) (color : Bool) : '\n' ∉ (s.shown color).toList := by
  cases s <;> cases color <;> decide

namespace Problem

variable (p : Problem) (color : Bool)

/-- What stands before the text of a problem. -/
def lead : String :=
  SourcePath.display p.path ++ ":" ++ p.range.start.text ++ ": " ++ p.severity.shown color ++ ": "

theorem line_eq : p.line = p.lead false ++ p.text := rfl

theorem plain_eq : p.plain color = p.lead color ++ indentContinuations p.text := rfl

/-- The lines of a problem in plain form. -/
def rows : List (List Char) := (p.plain color).toList.splitOn '\n'

variable {p}

theorem not_mem_lead (h : SourcePath.IsLegible p.path) : '\n' ∉ (p.lead color).toList := by
  have hcolon : '\n' ∉ ":".toList := by decide
  have hcolons : '\n' ∉ ": ".toList := by decide
  simp only [lead, String.toList_append, List.mem_append]
  rintro (((((hpath | hmem) | hstart) | hmem) | hseverity) | hmem)
  · exact (SourcePath.isLegible_display h).1 hpath
  · exact hcolon hmem
  · exact p.range.start.not_mem_text hstart
  · exact hcolons hmem
  · exact p.severity.not_mem_shown color hseverity
  · exact hcolons hmem

/-- After the path comes a colon, which is in no indentation. -/
theorem not_continues_lead (h : SourcePath.IsLegible p.path) (line : List Char) :
    continues ((p.lead color).toList ++ line) = false := by
  have hcolon : ":".toList = [':'] := rfl
  refine Bool.eq_false_iff.mpr fun hcontinues => ?_
  have hprefix := List.isPrefixOf_iff_prefix.mp hcontinues
  simp only [lead, String.toList_append, List.append_assoc, hcolon, List.singleton_append] at hprefix
  exact (SourcePath.isLegible_display h).2 (prefix_of_prefix_append_cons (by decide) hprefix)

/-- The lines of the text, the first one behind the lead and the others behind an indentation. -/
theorem rows_eq (h : SourcePath.IsLegible p.path) : ∃ first rest, p.text.toList.splitOn '\n' = first :: rest ∧
    p.rows color = ((p.lead color).toList ++ first) :: rest.map (indentation ++ ·) := by
  obtain ⟨first, rest, htext, hindented⟩ := splitOn_indented p.text.toList (not_mem_lead color h)
  refine ⟨first, rest, htext, ?_⟩
  rw [rows, plain_eq, String.toList_append, indentContinuations, String.toList_ofList]
  exact hindented

theorem isBlock_rows (h : SourcePath.IsLegible p.path) : IsBlock (p.rows color) := by
  obtain ⟨first, rest, -, hrows⟩ := rows_eq color h
  refine ⟨_, _, hrows, not_continues_lead color h first, fun line hline => ?_⟩
  obtain ⟨line', -, rfl⟩ := List.mem_map.mp hline
  exact continues_append line'

/-- **Without the indentations the plain form is the line of the problem.** -/
theorem unindent_rows (h : SourcePath.IsLegible p.path) : unindent (p.rows false) = p.line.toList := by
  obtain ⟨first, rest, htext, hrows⟩ := rows_eq false h
  have hdrop : (rest.map (indentation ++ ·)).map (List.drop indentation.length) = rest := by
    rw [List.map_map]
    exact (List.map_congr_left fun line _ => List.drop_left).trans (List.map_id rest)
  have hlead : ∀ front : List Char, ['\n'].intercalate ((front ++ first) :: rest) =
      front ++ ['\n'].intercalate (first :: rest) := by
    intro front
    cases rest with
    | nil => rw [List.intercalate_singleton, List.intercalate_singleton]
    | cons line rest => simp only [List.intercalate_cons_cons, List.append_assoc]
  calc unindent (p.rows false) = ['\n'].intercalate (((p.lead false).toList ++ first) :: rest) := by
        rw [hrows, unindent, hdrop]
    _ = (p.lead false).toList ++ ['\n'].intercalate (p.text.toList.splitOn '\n') := by rw [hlead, htext]
    _ = p.line.toList := by rw [List.intercalate_splitOn, line_eq, String.toList_append]

end Problem

/-! ## Many problems -/

/-- **Plain text can be cut back into problems.** Let no path have a line feed or begin like an indentation. In the text
of the plain forms of problems, with a line feed after each of them and with colours or without, a line is the first one
of a problem exactly if it does not begin with the four spaces of an indentation; so the lines, cut before each such
line, are those of the problems one by one. Without colours, and without the indentations, they are the lines of the
problems again, whatever the texts are. -/
theorem plain_restored {problems : List Problem} (h : ∀ p ∈ problems, SourcePath.IsLegible p.path) :
    (∀ color : Bool,
      (String.join (problems.map fun p => p.plain color ++ "\n")).toList.splitOn '\n' =
        problems.flatMap (fun p => p.rows color) ++ [[]] ∧
      (∀ i line, (problems.flatMap fun p => p.rows color)[i]? = some line →
        ((∃ k < problems.length, i = ((problems.take k).flatMap fun p => p.rows color).length) ↔
          continues line = false)) ∧
      cutLines (problems.flatMap fun p => p.rows color) = problems.map fun p => p.rows color) ∧
    (cutLines ((String.join (problems.map fun p => p.plain false ++ "\n")).toList.splitOn '\n').dropLast).map unindent =
      problems.map fun p => p.line.toList := by
  have hsplit : ∀ color : Bool, (String.join (problems.map fun p => p.plain color ++ "\n")).toList.splitOn '\n' =
      problems.flatMap (fun p => p.rows color) ++ [[]] := by
    intro color
    unfold Problem.rows
    rw [splitOn_ended]
  have hblocks : ∀ color : Bool, ∀ b ∈ problems.map (fun p => p.rows color), IsBlock b := by
    intro color b hb
    obtain ⟨p, hp, rfl⟩ := List.mem_map.mp hb
    exact Problem.isBlock_rows color (h p hp)
  have hcut : ∀ color : Bool,
      cutLines (problems.flatMap fun p => p.rows color) = problems.map fun p => p.rows color := by
    intro color
    rw [List.flatMap_def]
    exact cutLines_flatten (hblocks color)
  refine ⟨fun color => ⟨hsplit color, fun i line hline => ?_, hcut color⟩, ?_⟩
  · rw [List.flatMap_def] at hline
    have hstarts := starts_iff (hblocks color) hline
    simpa only [List.length_map, ← List.map_take, ← List.flatMap_def] using hstarts
  · rw [hsplit, List.dropLast_concat, hcut, List.map_map]
    exact List.map_congr_left fun p hp => Problem.unindent_rows (h p hp)

/-- A problem without a file whose text has an empty line, an indented one and a line feed at its end, and one whose
path begins with a space: the lines that begin them are the first and the fifth. -/
theorem plain_restored_indented : ∃ problems : List Problem, (∀ p ∈ problems, SourcePath.IsLegible p.path) ∧
    (problems.flatMap fun p => p.rows false).map continues = [false, true, true, true, false] ∧
    (cutLines ((String.join (problems.map fun p => p.plain false ++ "\n")).toList.splitOn '\n').dropLast).map unindent =
      ["<std macros>:1:1: help: a\n\n    b\n".toList, " c:1:1: info: \r".toList] := by
  have hlegible : ∀ p ∈ ([⟨"", .placeholder, .help, "a\n\n    b\n"⟩, ⟨" c", .placeholder, .info, "\r"⟩] : List Problem),
      SourcePath.IsLegible p.path := by decide
  exact ⟨_, hlegible, by decide, (plain_restored hlegible).2.trans (by decide)⟩

end Pinpoint
