import Pinpoint.Proofs.Message.Acceptance
import Pinpoint.Proofs.Message.Deliveries
import Pinpoint.Proofs.Message.Dumps
import Pinpoint.Proofs.Run.Independence

/-!
# The two formats of an output

A line of JSON is read back as the problem that it was written for (`Problem.ofLine?_jsonLine`). So what a run puts out
in plain form can be made from what it puts out as JSON, and all else that it says and its exit code do not depend on
the format. The main result is `formats_agree`.
-/

namespace Pinpoint

open Json (Stream)

/-! ## Lines read back -/

/-- The problem that a line of JSON was written for. -/
def Problem.ofLine? (line : List Char) : Option Problem :=
  match (Stream.ofText (String.ofList line)).values? with
  | some [v] => ofJson? v
  | _ => none

/-- **A line of JSON is read back as its problem.** -/
theorem Problem.ofLine?_jsonLine (p : Problem) : ofLine? p.jsonLine.toList = some p := by
  have hvalues : (Stream.ofText p.jsonLine).values? = some [p.toJson.tree.value] := p.values?_jsonLine
  rw [ofLine?, String.ofList_toList, hvalues]
  exact p.ofJson?_toJson

/-! ## Runs -/

/-- The options, with another format. -/
def Options.inFormat (o : Options) (format : Format) : Options := { o with format }

/-- Where the standard input is read at most once, or one input at a time, all schedules give the same. -/
theorem Surroundings.exists_result {s : Surroundings} {jobs : UInt64} {names : List String}
    (h : names.countP s.readsStdin ≤ 1 ∨ jobs ≤ 1) :
    ∃ collected, ∀ moves, s.Completes jobs names moves → (s.collectPooled jobs names moves).result = collected := by
  rcases h with honce | hjobs
  · exact ⟨_, fun moves hmoves => result_collectPooled_of_once honce hmoves⟩
  · exact ⟨_, fun moves hmoves => result_of_single hjobs hmoves⟩

/-- **The formats agree.** Let a run without trees read the standard input at most once, or one input at a time. It is
read at most once if `-` is among the inputs at most once and no file name leads to it (`Surroundings.once_of_count`).
In the plain format the run has the exit code and the notices that it has in the JSON format, and what it puts out are
the problems that are read back from the lines of its JSON, in their order, each in plain form and with a line feed
after it. -/
theorem formats_agree {o : Options} (htree : o.tree = false) {s : Surroundings}
    (hread : o.inputNames.countP s.readsStdin ≤ 1 ∨ o.jobs ≤ 1) {directives : Option String} {onTerminal : Bool}
    {json plain : Report} (hjson : MayReport (o.inFormat .json) directives s onTerminal json)
    (hplain : MayReport (o.inFormat .plain) directives s onTerminal plain) :
    plain.exitCode = json.exitCode ∧ plain.notices = json.notices ∧
      ∃ lines problems, json.output.toList.splitOn '\n' = lines ++ [[]] ∧ lines.mapM Problem.ofLine? = some problems ∧
        plain.output = String.join (problems.map fun p => p.plain (o.coloring.applies onTerminal) ++ "\n") := by
  obtain ⟨collected, hresult⟩ := Surroundings.exists_result hread
  obtain ⟨hjsonOutput, hjsonNotices, hjsonExit⟩ := hjson.parts hresult
  obtain ⟨hplainOutput, hplainNotices, hplainExit⟩ := hplain.parts hresult
  refine ⟨hplainExit.trans hjsonExit.symm, ?_, ?_⟩
  · have hnotice : ∀ c : Collected, c.notice ((o.inFormat .plain).layout onTerminal) =
        c.notice ((o.inFormat .json).layout onTerminal) := fun c => rfl
    rw [hplainNotices, hjsonNotices]
    simp only [hnotice]
  · let problems := collected.flatMap Collected.problems
    have hlines : json.output.toList.splitOn '\n' = problems.map (fun p => p.jsonLine.toList) ++ [[]] := by
      rw [hjsonOutput, Collected.join_blocks htree]
      exact splitOn_lines Problem.not_mem_jsonLine problems
    have hproblems : (problems.map fun p => p.jsonLine.toList).mapM Problem.ofLine? = some problems :=
      mapM_map Problem.ofLine? _ fun p _ => p.ofLine?_jsonLine
    refine ⟨_, problems, hlines, hproblems, ?_⟩
    rw [hplainOutput, Collected.join_blocks htree]
    rfl

/-- A file that is not there, before a standard input with one diagnostic: both formats fail with the same notices, and
from the one line of JSON comes the one line that the plain format puts out. -/
theorem formats_agree_missing : ∃ (text : String) (json plain : Report) (p : Problem),
    MayReport (Options.inFormat { inputs := ["a", "-"] } .json) none (.withoutFiles [.bytes text.toUTF8]) false json ∧
      MayReport (Options.inFormat { inputs := ["a", "-"] } .plain) none (.withoutFiles [.bytes text.toUTF8]) false
        plain ∧
      json.exitCode = 1 ∧ plain.exitCode = json.exitCode ∧ plain.notices = json.notices ∧
      json.output = p.jsonLine ++ "\n" ∧ plain.output = "<std macros>:1:3: error: m:\n" := by
  obtain ⟨text, htext⟩ : ∃ text : String, text = "[\"m\",null,\"error\",[[null,1,2,3,4]]]" := ⟨_, rfl⟩
  let p : Problem := ⟨"", .between ⟨1, 3⟩ ⟨2, 4⟩, .error, "m:"⟩
  let m : Message := ⟨"m", .error, none, none, [⟨⟨"", p.range, .error, none⟩, true, none, none⟩]⟩
  have hvalues : (Stream.ofText text).values? = some [.list [.text "m", .null, .text "error", .list [
      .list [.null, .number (.natural 1), .number (.natural 2), .number (.natural 3), .number (.natural 4)]]]] := by
    rw [htext]
    rfl
  have haccepted : (Message.ofText text).result = .ok [m] :=
    Message.ofText_eq_ok_iff.mpr ⟨_, hvalues, .cons (x := some m) rfl .nil⟩
  obtain ⟨s, hs⟩ : ∃ s, s = Surroundings.withoutFiles [.bytes text.toUTF8] := ⟨_, rfl⟩
  have hstdin : s.alone "-" = ⟨"-", .ok [m]⟩ := by
    rw [hs]
    exact Surroundings.alone_of_text haccepted
  have hfile : s.alone "a" = ⟨"a", .error (.unopened "a" .notFound)⟩ := by
    rw [hs]
    rfl
  have honce : ["a", "-"].countP s.readsStdin ≤ 1 := by
    rw [hs]
    exact Surroundings.once_of_count (Surroundings.openName_withoutFiles _) (by decide)
  obtain ⟨json, hjson⟩ : ∃ r, MayReport (Options.inFormat { inputs := ["a", "-"] } .json) none s false r :=
    ⟨_, mayReport_run _ _ _ _⟩
  obtain ⟨plain, hplain⟩ : ∃ r, MayReport (Options.inFormat { inputs := ["a", "-"] } .plain) none s false r :=
    ⟨_, mayReport_run _ _ _ _⟩
  obtain ⟨hexit, hnotices, lines, problems, hlines, hproblems, houtput⟩ :=
    formats_agree (o := { inputs := ["a", "-"] }) rfl (.inl honce) hjson hplain
  obtain ⟨hjsonOutput, -, hjsonExit⟩ := hjson.of_once honce
  have hblocks : ["a", "-"].map (fun name => (s.alone name).block ⟨.json, false, false⟩) =
      ["", String.join ([p].map fun p => p.jsonLine ++ "\n")] := by
    rw [List.map_cons, List.map_cons, hfile, hstdin]
    rfl
  have hjoin : String.join ["", String.join ([p].map fun p => p.jsonLine ++ "\n")] =
      String.join ([p].map fun p => p.jsonLine ++ "\n") := by
    simp only [String.join_cons, String.join_nil, String.empty_append, String.append_empty]
  have hline := hjsonOutput.trans ((congrArg String.join hblocks).trans hjoin)
  rw [hline, splitOn_lines Problem.not_mem_jsonLine] at hlines
  obtain rfl := List.append_cancel_right hlines
  have hread : ([p].map fun p => p.jsonLine.toList).mapM Problem.ofLine? = some [p] :=
    mapM_map Problem.ofLine? _ fun p _ => p.ofLine?_jsonLine
  obtain rfl := Option.some.inj (hread.symm.trans hproblems)
  have hshown : String.join ([p].map fun p => p.plain false ++ "\n") = "<std macros>:1:3: error: m:\n" := by decide
  have hcode : json.exitCode = 1 := by
    rw [hjsonExit]
    show (if (["a", "-"].any fun name => (s.alone name).failed) && true then 1 else 0) = 1
    rw [List.any_cons, hfile]
    rfl
  have hone : String.join ([p].map fun p => p.jsonLine ++ "\n") = p.jsonLine ++ "\n" := by
    simp only [List.map_cons, List.map_nil, String.join_cons, String.join_nil, String.append_empty]
  subst hs
  exact ⟨text, json, plain, p, hjson, hplain, hcode, hexit, hnotices, hline.trans hone, houtput.trans hshown⟩

end Pinpoint
