import Pinpoint.Proofs.Run.Reports

/-!
# What the options of a run leave alone

Where the standard input is read at most once, a run says of each input what that input gives alone, whatever the jobs
and the schedule. So the jobs, what becomes of invalid inputs, and all that is about the log show neither in the output
nor in the notices, and the exit code tells whether an input was of no use and such inputs are not to be skipped
(`options_independent`).
-/

namespace Pinpoint

/-! ## Inputs of no use -/

/-- An input that cannot be opened, or not be read as text, or whose text gives no messages. -/
inductive Surroundings.Unusable (s : Surroundings) (name : String) : Prop
  | unopened {f : OpenFailure} : s.supply name = .error f → s.Unusable name
  | unread {supply : Supply} {f : ReadFailure} : s.supply name = .ok supply →
      Delivery.text (supply.take s.stdin).1 = .error f → s.Unusable name
  | unparsed {supply : Supply} {text : String} {e : ParseError} : s.supply name = .ok supply →
      Delivery.text (supply.take s.stdin).1 = .ok text → (Message.ofText text).result = .error e → s.Unusable name

/-- Deliveries fail if they bring no text, or one that gives no messages. -/
theorem Source.failed_ofDeliveries_iff (name : String) (ds : List Delivery) :
    (Source.collect ⟨name, .ok ds⟩).result.failed = true ↔
      (∃ f, Delivery.text ds = .error f) ∨
        ∃ text e, Delivery.text ds = .ok text ∧ (Message.ofText text).result = .error e := by
  simp only [collect, Logged.map, Message.ofDeliveries, Collected.failed]
  cases Delivery.text ds with
  | error f => exact iff_of_true rfl (.inl ⟨f, rfl⟩)
  | ok text =>
    cases hresult : (Message.ofText text).result with
    | error e => exact iff_of_true rfl (.inr ⟨text, e, rfl, hresult⟩)
    | ok messages => exact iff_of_false nofun (by simp [hresult])

namespace Surroundings

variable {s : Surroundings} {name : String}

/-- An input fails exactly if it is of no use. -/
theorem failed_alone_iff : (s.alone name).failed = true ↔ s.Unusable name := by
  unfold alone source
  cases hsupply : s.supply name with
  | error f => exact ⟨fun _ => .unopened hsupply, fun _ => rfl⟩
  | ok supply =>
    refine (Source.failed_ofDeliveries_iff name _).trans ⟨fun h => ?_, fun h => ?_⟩
    · obtain ⟨f, hf⟩ | ⟨text, e, htext, he⟩ := h
      · exact .unread hsupply hf
      · exact .unparsed hsupply htext he
    · cases h with
      | unopened h => rw [hsupply] at h; cases h
      | unread h hf => rw [hsupply] at h; cases h; exact .inl ⟨_, hf⟩
      | unparsed h htext he => rw [hsupply] at h; cases h; exact .inr ⟨_, _, htext, he⟩

end Surroundings

/-! ## Runs -/

variable {o : Options} {directives : Option String} {s : Surroundings} {onTerminal : Bool} {r : Report}

/-- The parts of a report, by what the inputs give alone. -/
theorem MayReport.of_once (h : MayReport o directives s onTerminal r) (honce : o.inputNames.countP s.readsStdin ≤ 1) :
    r.output = String.join (o.inputNames.map fun name => (s.alone name).block (o.layout onTerminal)) ∧
      r.notices = String.join (o.inputNames.map fun name => (s.alone name).notice (o.layout onTerminal)) ∧
      r.exitCode = if (o.inputNames.any fun name => (s.alone name).failed) && !o.skipInvalid then 1 else 0 := by
  have hparts := h.parts fun moves hmoves => Surroundings.result_collectPooled_of_once honce hmoves
  simpa only [List.map_map, List.any_map, Function.comp_def] using hparts

/-- **What is no matter of layout does not show.** Let at most one input be the standard input; where no file name leads
to it, this says that `-` is among the inputs at most once (`Surroundings.once_of_count`). Other jobs, another treatment
of invalid inputs, other directives for the log and a verbose one or none change neither the output nor the notices of a
run. Its exit code is 1 exactly if an input was of no use and such inputs are not to be skipped, and 0 otherwise. -/
theorem options_independent (honce : o.inputNames.countP s.readsStdin ≤ 1) (h : MayReport o directives s onTerminal r) :
    (∀ jobs skipInvalid verbose directives',
      (∃ r', MayReport { o with jobs, skipInvalid, verbose } directives' s onTerminal r') ∧
      ∀ r', MayReport { o with jobs, skipInvalid, verbose } directives' s onTerminal r' →
        r'.output = r.output ∧ r'.notices = r.notices) ∧
    (r.exitCode = 1 ↔ (∃ name ∈ o.inputNames, s.Unusable name) ∧ o.skipInvalid = false) ∧
    (r.exitCode = 0 ↔ ¬ ((∃ name ∈ o.inputNames, s.Unusable name) ∧ o.skipInvalid = false)) := by
  obtain ⟨houtput, hnotices, hexit⟩ := h.of_once honce
  refine ⟨fun jobs skipInvalid verbose directives' => ⟨⟨_, mayReport_run _ _ _ _⟩, fun r' h' => ?_⟩, ?_⟩
  · obtain ⟨houtput', hnotices', -⟩ := h'.of_once honce
    exact ⟨houtput'.trans houtput.symm, hnotices'.trans hnotices.symm⟩
  · have huse : ((o.inputNames.any fun name => (s.alone name).failed) && !o.skipInvalid) = true ↔
        (∃ name ∈ o.inputNames, s.Unusable name) ∧ o.skipInvalid = false := by
      simp [Surroundings.failed_alone_iff]
    rw [hexit, ← huse]
    split
    · next hfails => exact ⟨iff_of_true rfl hfails, iff_of_false (by decide) (not_not_intro hfails)⟩
    · next hpasses => exact ⟨iff_of_false (by decide) hpasses, iff_of_true rfl hpasses⟩

/-- A file that is not there, before an empty standard input: a quiet run fails and a verbose one that skips it does
not, but they say the same. -/
theorem options_independent_missing : ∃ r r',
    MayReport { inputs := ["a", "-"] } none (.withoutFiles []) false r ∧
      MayReport { inputs := ["a", "-"], jobs := 0, skipInvalid := true, verbose := true } (some "off")
        (.withoutFiles []) false r' ∧
      r'.output = r.output ∧ r'.notices = r.notices ∧ r.exitCode = 1 ∧ r'.exitCode = 0 := by
  have honce : ["a", "-"].countP (Surroundings.withoutFiles []).readsStdin ≤ 1 :=
    Surroundings.once_of_count (Surroundings.openName_withoutFiles []) (by decide)
  have hquiet := mayReport_run { inputs := ["a", "-"] } none (.withoutFiles []) false
  have hskipping := mayReport_run { inputs := ["a", "-"], jobs := 0, skipInvalid := true, verbose := true } (some "off")
    (.withoutFiles []) false
  obtain ⟨hsame, hfails, -⟩ := options_independent honce hquiet
  obtain ⟨-, -, hpasses⟩ := options_independent honce hskipping
  obtain ⟨houtput, hnotices⟩ := (hsame 0 true true (some "off")).2 _ hskipping
  refine ⟨_, _, hquiet, hskipping, houtput, hnotices, hfails.mpr ⟨⟨"a", ?_, .unopened rfl⟩, rfl⟩, hpasses.mpr ?_⟩
  · exact List.mem_cons_self
  · exact fun h => absurd h.2 (by decide)

end Pinpoint
