import Pinpoint.Proofs.Input.Collecting
import Pinpoint.Proofs.Input.Origins
import Pinpoint.Proofs.Message.Acceptance
import Pinpoint.Proofs.Message.Concatenation
import Pinpoint.Proofs.Message.Deliveries
import Pinpoint.Proofs.Run.Reports
import Pinpoint.Proofs.Run.Tallies

/-!
# Summaries

Whatever the schedule of a run, the notice about an input that has messages is a summary of the records of the text that
was delivered for it: its counts are told from the values of the records (`Collected.Summarizes`), and they fit the
block of output (`summaries_tallied`).
-/

namespace Pinpoint

open Json (Value Stream SpellsStream)

/-- The record is one of the build tool that is for others. -/
def Record.isForeign (v : Value) : Bool :=
  match v.get? "reason" with
  | some (.text reason) => reason ≠ "compiler-message"
  | _ => false

/-- Those are the records that are skipped. -/
theorem Record.skips_eq (v : Value) : Message.skips v = isForeign v := by
  unfold Message.skips isForeign
  by_cases hreason : ∃ reason, v.get? "reason" = some (.text reason)
  · obtain ⟨reason, hreason⟩ := hreason
    rw [ofJson_of_reason hreason, hreason]
    by_cases hdiagnostic : reason = "compiler-message" <;> simp [hdiagnostic]
  · have hbare : ∀ reason, v.get? "reason" ≠ some (.text reason) := fun reason h => hreason ⟨reason, h⟩
    rw [ofJson_of_bare hbare]
    cases hmember : v.get? "reason" with
    | none => rfl
    | some w =>
      cases w with
      | text reason => exact absurd hmember (hbare reason)
      | null | bool _ | number _ | list _ | object _ => rfl

/-- The notice about an input with these messages, and its block in a layout without trees, sum up the records. The
notice tells how many messages there are, one for each record that is not foreign, and how many problems of each
severity, which are told from the diagnostics; the block has a line for each of the problems. -/
structure Collected.Summarizes (c : Collected) (l : Layout) (ms : List Message) (vs : List Value) : Prop where
  notice : c.notice l =
    c.name ++ ": " ++ ms.length.repr ++ " diagnostic(s), " ++ (tallyOf ms).errors.repr ++ " errors, " ++
      (tallyOf ms).warnings.repr ++ " warnings, " ++ (tallyOf ms).infos.repr ++ " infos, " ++
      (tallyOf ms).helps.repr ++ " helps\n"
  records : ms.length + vs.countP Record.isForeign = vs.length
  sums : (tallyOf ms).Sums (vs.filterMap Record.payload?)
  block : c.block l = String.join ((problemsOf ms).map fun p => l.line p ++ "\n")
  total : (tallyOf ms).total = (problemsOf ms).length

/-- Messages that values give sum them up. -/
theorem Collected.summarizes {c : Collected} {l : Layout} {ms : List Message} {vs : List Value}
    (hc : c.messages = .ok ms) (hl : l.tree = false) (hg : Message.Gives vs ms) : c.Summarizes l ms vs where
  notice := by
    simp only [Collected.notice, hc, hl, Tally.text, String.append_assoc]
    rfl
  records := by
    have hlength := hg.length
    rwa [funext Record.skips_eq] at hlength
  sums := tallyOf_sums hg.mirrors
  block := by
    simp only [Collected.block, hc, Layout.block, hl]
    rfl
  total := total_tallyOf ms

/-- **Summaries tell what was in the records.** A run without trees puts out a block for each input and tells one notice
about each, in the order of the inputs. An input that has messages was delivered as a text of JSON values, and its
notice and its block sum these up: the count of a severity other than that for information is the number of primary
spans of the diagnostics whose level has it; for information there are all secondary spans, all invocations of macros
that primary spans show, and the primary spans of diagnostics of that severity; all counts together are as many as the
problems in the block, and the messages are as many as the records that are not skipped. -/
theorem summaries_tallied {o : Options} (htree : o.tree = false) (s : Surroundings) (onTerminal : Bool)
    (moves : List Pool.Move) (f : LogFilter) :
    (s.collectPooled o.jobs o.inputNames moves).result.map Collected.name = o.inputNames ∧
    ((runBy o s onTerminal moves).filtered f).notices = String.join
      ((s.collectPooled o.jobs o.inputNames moves).result.map fun c => c.notice (o.layout onTerminal)) ∧
    ((runBy o s onTerminal moves).filtered f).output = String.join
      ((s.collectPooled o.jobs o.inputNames moves).result.map fun c => c.block (o.layout onTerminal)) ∧
    ∀ c ∈ (s.collectPooled o.jobs o.inputNames moves).result, ∀ ms, c.messages = .ok ms →
      ∃ supply stdin text vs, s.supply c.name = .ok supply ∧ (stdin = s.stdin ∨ stdin = []) ∧
        Delivery.text (supply.take stdin).1 = .ok text ∧ SpellsStream text.toList vs ∧
        c.Summarizes (o.layout onTerminal) ms vs := by
  refine ⟨s.names_collectPooled _ _ moves, ?_, ?_, fun c hc ms hms => ?_⟩
  · rw [Report.notices_filtered]
    exact notices_report o onTerminal _
  · rw [Report.output_filtered]
    exact output_report o onTerminal _
  · obtain ⟨i, hi⟩ := List.mem_iff_getElem?.mp hc
    obtain ⟨name, -, horigin⟩ := s.origin_collectPooled _ _ moves hi
    obtain ⟨supply, stdin, text, hsupply, hstdin, htext, hresult⟩ := horigin.text hms
    obtain ⟨vs, hvs, hg⟩ := Message.ofText_eq_ok_iff.mp hresult
    rw [← horigin.name_eq] at hsupply
    exact ⟨supply, stdin, text, vs, hsupply, hstdin, htext, Stream.values?_ofText_iff.mp hvs,
      Collected.summarizes hms htree hg⟩

/-- A diagnostic with a primary span that a macro made and a secondary one, and a record that is for others: one message
with one error and two problems for information, as the only line of the notices says. -/
theorem summaries_tallied_macro : ∃ (text : String) (c : Collected) (ms : List Message) (vs : List Value),
    ((run { jobs := 1 } (.withoutFiles [.bytes text.toUTF8]) false).filtered ⟨[]⟩).notices =
      c.notice ⟨.plain, false, false⟩ ∧
    c.Summarizes ⟨.plain, false, false⟩ ms vs ∧ ms.length = 1 ∧ tallyOf ms = ⟨1, 0, 2, 0⟩ ∧
    c.notice ⟨.plain, false, false⟩ = "-: 1 diagnostic(s), 1 errors, 0 warnings, 2 infos, 0 helps\n" := by
  let site (line column line' column' : UInt64) (severity : Severity) : Site :=
    ⟨"", .between ⟨line, column⟩ ⟨line', column'⟩, severity, none⟩
  let m : Message := ⟨"m", .error, none, none,
    [⟨site 1 3 2 4 .error, true, some (.leaf (site 9 1 9 2 .error)), none⟩, ⟨site 5 5 5 5 .info, false, none, none⟩]⟩
  obtain ⟨text, htext⟩ : ∃ text : String,
      text = "[\"m\",null,\"error\",[[null,1,2,3,4,null,null,[[null,9,9,1,2]]],[null,5,5,5,5,false]]]" ++
        "\x7b\"reason\":\"r\"\x7d" := ⟨_, rfl⟩
  have hvalues : (Stream.ofText text).values? = some [.list [.text "m", .null, .text "error", .list [
        .list [.null, .number (.natural 1), .number (.natural 2), .number (.natural 3), .number (.natural 4), .null,
          .null, .list [.list [.null, .number (.natural 9), .number (.natural 9), .number (.natural 1),
            .number (.natural 2)]]],
        .list [.null, .number (.natural 5), .number (.natural 5), .number (.natural 5), .number (.natural 5),
          .bool false]]],
      .object [("reason", .text "r")]] := by
    rw [htext]
    rfl
  have haccepted : (Message.ofText text).result = .ok [m] :=
    Message.ofText_eq_ok_iff.mpr ⟨_, hvalues, .cons (x := some m) rfl (.cons (x := none) rfl .nil)⟩
  have honce : ["-"].countP (Surroundings.withoutFiles [.bytes text.toUTF8]).readsStdin ≤ 1 :=
    Surroundings.once_of_count (Surroundings.openName_withoutFiles _) (by decide)
  have hresult : (Surroundings.collectPooled (.withoutFiles [.bytes text.toUTF8]) 1 ["-"] (Pool.inOrder 1)).result =
      [⟨"-", .ok [m]⟩] := by
    have hcompletes := Surroundings.completes_inOrder (.withoutFiles [.bytes text.toUTF8]) 1 ["-"]
    rw [show Pool.inOrder 1 = Pool.inOrder ["-"].length from rfl,
      Surroundings.result_collectPooled_of_once honce hcompletes, List.map_singleton]
    exact congrArg ([·]) (Surroundings.alone_of_text haccepted)
  obtain ⟨-, hnotices, -, hall⟩ := summaries_tallied (o := { jobs := 1 }) rfl
    (.withoutFiles [.bytes text.toUTF8]) false (Pool.inOrder 1) ⟨[]⟩
  have hmem : (⟨"-", .ok [m]⟩ : Collected) ∈
      (Surroundings.collectPooled (.withoutFiles [.bytes text.toUTF8]) 1 ["-"] (Pool.inOrder 1)).result := by
    rw [hresult]
    exact List.mem_cons_self
  obtain ⟨_, _, _, vs, -, -, -, -, hsummarizes⟩ := hall _ hmem [m] rfl
  refine ⟨text, ⟨"-", .ok [m]⟩, [m], vs, hnotices.trans ?_, hsummarizes, rfl, rfl, hsummarizes.notice.trans (by decide)⟩
  show String.join (List.map _ (Surroundings.collectPooled _ 1 ["-"] (Pool.inOrder 1)).result) = _
  rw [hresult, List.map_singleton, String.join_cons]
  exact String.append_empty

end Pinpoint
