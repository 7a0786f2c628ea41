import Pinpoint.Proofs.Json.Writing
import Pinpoint.Proofs.Run.Reports

/-!
# Problems as lines of JSON

A problem is written on one line that holds all of it (`values?_jsonLine`), so no two problems share a line
(`jsonLine_injective`), and the lines of an output are its problems in their order (`splitOn_lines`). The main result is
`jsonLine_lossless`.
-/

namespace Pinpoint

open Json

/-- A severity is known by its name. -/
theorem Severity.name_injective : Function.Injective Severity.name := by
  intro s s' h
  have hname : ofName? s.name = ofName? s'.name := congrArg ofName? h
  rwa [ofName?_name, ofName?_name, Option.some.injEq] at hname

/-! ## One problem -/

theorem SourceRange.within_toJson (r : SourceRange) (d : Nat) : r.toJson.Within Number.IsNatural (d + 1) := by
  refine .object fun m hm => ?_
  simp only [List.mem_cons, List.not_mem_nil, or_false] at hm
  rcases hm with rfl | rfl | rfl | rfl
  all_goals exact .number ⟨_, rfl⟩

namespace Problem

theorem within_toJson (p : Problem) (d : Nat) : p.toJson.Within Number.IsNatural (d + 2) := by
  refine .object fun m hm => ?_
  simp only [List.mem_cons, List.not_mem_nil, or_false] at hm
  rcases hm with rfl | rfl | rfl | rfl
  · exact .text
  · exact p.range.within_toJson d
  · exact .text
  · exact .text

/-- The line of a problem is read as its members in the order of their keys. -/
theorem values?_jsonLine (p : Problem) :
    (Stream.ofText p.jsonLine).values? = some [.object [("path", .text p.path),
      ("range", .object [("end_column", .number (.natural p.range.stop.column)),
        ("end_line", .number (.natural p.range.stop.line)),
        ("start_column", .number (.natural p.range.start.column)),
        ("start_line", .number (.natural p.range.start.line))]),
      ("severity", .text p.severity.name), ("text", .text p.text)]] := by
  have hwithin : p.toJson.Within Number.IsNatural maxNesting := p.within_toJson _
  have hstream := (SpellsStream.done Blank.nil).prepend hwithin.writesCompact.spells rfl
  rw [List.append_nil] at hstream
  refine Stream.values?_ofText_iff.mpr ?_
  rw [jsonLine, Value.compact, String.toList_ofList]
  exact hstream

theorem noControls_jsonLine (p : Problem) : NoControls p.jsonLine.toList := by
  rw [jsonLine, Value.compact, String.toList_ofList]
  exact (p.within_toJson 0).noControls

/-- Problems with the same line are the same. -/
theorem jsonLine_injective : Function.Injective jsonLine := by
  rintro ⟨path, ⟨⟨line, column⟩, ⟨line', column'⟩⟩, severity, text⟩
    ⟨path₂, ⟨⟨line₂, column₂⟩, ⟨line₂', column₂'⟩⟩, severity₂, text₂⟩ h
  have hvalues := values?_jsonLine ⟨path, ⟨⟨line, column⟩, ⟨line', column'⟩⟩, severity, text⟩
  rw [h, values?_jsonLine] at hvalues
  simp only [Option.some.injEq, List.cons.injEq, Value.object.injEq, Prod.mk.injEq, Value.text.injEq,
    Value.number.injEq, Number.natural.injEq, and_true, true_and] at hvalues
  obtain ⟨rfl, ⟨rfl, rfl, rfl, rfl⟩, hseverity, rfl⟩ := hvalues
  rw [Severity.name_injective hseverity]

end Problem

/-! ## Many problems -/

/-- Texts that are ended one by one keep their lines, and after the last line feed there is nothing. -/
theorem splitOn_ended {α : Type} (text : α → String) (as : List α) :
    (String.join (as.map fun a => text a ++ "\n")).toList.splitOn '\n' =
      as.flatMap (fun a => (text a).toList.splitOn '\n') ++ [[]] := by
  induction as with
  | nil => rfl
  | cons a as ih =>
    have hend : "\n".toList = ['\n'] := rfl
    rw [List.map_cons, String.join_cons, String.toList_append, String.toList_append, hend, List.append_assoc,
      List.singleton_append, List.splitOn_append_cons_self, ih, List.flatMap_cons, List.append_assoc]

/-- Lines that are ended one by one are the lines of the whole. -/
theorem splitOn_lines {α : Type} {line : α → String} (h : ∀ a, '\n' ∉ (line a).toList) (as : List α) :
    (String.join (as.map fun a => line a ++ "\n")).toList.splitOn '\n' = as.map (fun a => (line a).toList) ++ [[]] := by
  have hone : ∀ a, (line a).toList.splitOn '\n' = [(line a).toList] := fun a => List.splitOn_eq_singleton (h a)
  rw [splitOn_ended, List.map_eq_flatMap]
  simp only [hone]

/-- A line feed is a control character. -/
theorem Problem.not_mem_jsonLine (p : Problem) : '\n' ∉ p.jsonLine.toList := by
  intro hmem
  exact p.noControls_jsonLine '\n' hmem (by decide)

/-- The problems of an input; none if there are no messages. -/
def Collected.problems (c : Collected) : List Problem :=
  match c.messages with
  | .error _ => []
  | .ok messages => problemsOf messages

/-- Without trees, a block is made of the lines of problems. -/
theorem Collected.block_eq_join {l : Layout} (hl : l.tree = false) (c : Collected) :
    c.block l = String.join (c.problems.map fun p => l.line p ++ "\n") := by
  unfold Collected.block Collected.problems
  cases c.messages with
  | error e => rfl
  | ok messages =>
    simp only [Layout.block, hl]
    rfl

/-- So are the blocks of all inputs. -/
theorem Collected.join_blocks {l : Layout} (hl : l.tree = false) (cs : List Collected) :
    String.join (cs.map fun c => c.block l) = String.join ((cs.flatMap problems).map fun p => l.line p ++ "\n") := by
  have hblocks : (fun c : Collected => c.block l) = fun c => String.join (c.problems.map fun p => l.line p ++ "\n") :=
    funext fun c => c.block_eq_join hl
  rw [hblocks, ← join_map_flatMap fun _ => rfl]

/-- **Lines of JSON lose nothing.** The line of a problem has no control characters, whatever is in its path and text,
and it is read as an object with the members of the problem and no others, so different problems have different lines.
Problems that are put out one after another have one line each, in their order, and so does the output of every run: its
lines are those of the problems of its inputs, in the order of the inputs. -/
theorem jsonLine_lossless :
    (∀ p : Problem, (∀ c ∈ p.jsonLine.toList, ¬c < ' ') ∧
      (Stream.ofText p.jsonLine).values? = some [.object [("path", .text p.path),
        ("range", .object [("end_column", .number (.natural p.range.stop.column)),
          ("end_line", .number (.natural p.range.stop.line)),
          ("start_column", .number (.natural p.range.start.column)),
          ("start_line", .number (.natural p.range.start.line))]),
        ("severity", .text p.severity.name), ("text", .text p.text)]]) ∧
    Function.Injective Problem.jsonLine ∧
    (∀ (color : Bool) (problems : List Problem),
      (String.join (problems.map fun p => Layout.line ⟨.json, color, false⟩ p ++ "\n")).toList.splitOn '\n' =
        problems.map (fun p => p.jsonLine.toList) ++ [[]]) ∧
    ∀ (o : Options) (s : Surroundings) (onTerminal : Bool) (moves : List Pool.Move) (f : LogFilter),
      ((runBy { o with format := .json, tree := false } s onTerminal moves).filtered f).output.toList.splitOn '\n' =
        ((s.collectPooled o.jobs o.inputNames moves).result.flatMap Collected.problems).map
          (fun p => p.jsonLine.toList) ++ [[]] := by
  have hlines : ∀ (color : Bool) (problems : List Problem),
      (String.join (problems.map fun p => Layout.line ⟨.json, color, false⟩ p ++ "\n")).toList.splitOn '\n' =
        problems.map (fun p => p.jsonLine.toList) ++ [[]] :=
    fun color problems => splitOn_lines Problem.not_mem_jsonLine problems
  refine ⟨fun p => ⟨p.noControls_jsonLine, p.values?_jsonLine⟩, Problem.jsonLine_injective, hlines, ?_⟩
  intro o s onTerminal moves f
  let layout : Layout := ⟨.json, o.coloring.applies onTerminal, false⟩
  have hlayout : Options.layout { o with format := .json, tree := false } onTerminal = layout := rfl
  have hblocks : (fun c : Collected => c.block layout) =
      fun c => String.join (c.problems.map fun p => layout.line p ++ "\n") :=
    funext fun c => c.block_eq_join rfl
  rw [Report.output_filtered, runBy, output_report, hlayout, hblocks, ← join_map_flatMap fun _ => rfl]
  exact hlines _ _

end Pinpoint
