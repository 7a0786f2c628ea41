import Pinpoint.Proofs.Input.Collecting
import Pinpoint.Run

/-!
# Reports of runs

The output of a run is the blocks of its inputs, and its notices are those about its inputs (`output_report`,
`notices_report`). No filter on the log changes them.
Which reports a run may come to is up to the schedules that its jobs allow (`MayReport`).
-/

namespace Pinpoint

/-! ## Emissions -/

/-- Texts that are empty may be left out. -/
theorem join_map_filter {α : Type} {f : α → String} {p : α → Bool} (h : ∀ a, p a = false → f a = "") (as : List α) :
    String.join ((as.filter p).map f) = String.join (as.map f) := by
  induction as with
  | nil => rfl
  | cons a as ih =>
    cases hp : p a with
    | true => rw [List.filter_cons_of_pos hp, List.map_cons, List.map_cons, String.join_cons, String.join_cons, ih]
    | false =>
      rw [List.filter_cons_of_neg (by simp [hp]), ih, List.map_cons, String.join_cons, h a hp, String.empty_append]

/-- A text for each part is a text for the whole. -/
theorem join_map_flatMap {α β : Type} {f : β → String} {g : α → List β} {k : α → String}
    (h : ∀ a, String.join ((g a).map f) = k a) (as : List α) :
    String.join ((as.flatMap g).map f) = String.join (as.map k) := by
  induction as with
  | nil => rfl
  | cons a as ih =>
    rw [List.flatMap_cons, List.map_append, String.join_append, h, ih, List.map_cons, String.join_cons]

/-- Events are no text. -/
theorem join_map_event {f : Emission → String} (h : ∀ e, f (.event e) = "") (events : List Event) :
    String.join ((events.map .event).map f) = "" := by
  induction events with
  | nil => rfl
  | cons e events ih => rw [List.map_cons, List.map_cons, String.join_cons, ih, h, String.append_empty]

namespace Report

theorem output_filtered (r : Report) (f : LogFilter) : (r.filtered f).output = r.output :=
  join_map_filter (fun e he => by cases e <;> first | rfl | cases he) r.emissions

theorem notices_filtered (r : Report) (f : LogFilter) : (r.filtered f).notices = r.notices :=
  join_map_filter (fun e he => by cases e <;> first | rfl | cases he) r.emissions

end Report

/-! ## The parts of a report -/

section

variable (o : Options) (onTerminal : Bool) (collected : Logged (List Collected))

/-- Of the events of a report nothing is text but what its inputs give. -/
theorem join_emissions_report {f : Emission → String} (h : ∀ e, f (.event e) = "") {k : Collected → String}
    (hk : ∀ c, String.join ((Collected.emissions c (o.layout onTerminal)).map f) = k c) :
    String.join ((report o onTerminal collected).emissions.map f) = String.join (collected.result.map k) := by
  rw [report, List.map_append, List.map_cons, String.join_append, String.join_cons, h, join_map_event h,
    join_map_flatMap hk]
  rfl

theorem output_report :
    (report o onTerminal collected).output =
      String.join (collected.result.map fun c => c.block (o.layout onTerminal)) :=
  join_emissions_report o onTerminal collected (fun _ => rfl) fun c => by
    rw [Collected.emissions, List.map_append, String.join_append, join_map_event fun _ => rfl]
    simp [Emission.written]

theorem notices_report :
    (report o onTerminal collected).notices =
      String.join (collected.result.map fun c => c.notice (o.layout onTerminal)) :=
  join_emissions_report o onTerminal collected (fun _ => rfl) fun c => by
    rw [Collected.emissions, List.map_append, String.join_append, join_map_event fun _ => rfl]
    simp [Emission.noted]

end

/-! ## Runs -/

/-- The report that a run may come to, with the directives for its log: by some schedule for its jobs that loses no
worker. -/
def MayReport (o : Options) (directives : Option String) (s : Surroundings) (onTerminal : Bool) (r : Report) : Prop :=
  ∃ moves, s.Completes o.jobs o.inputNames moves ∧
    r = (runBy o s onTerminal moves).filtered (.ofRun o.verbose directives)

/-- A run that reads its inputs one after the other is one of those that may be. -/
theorem mayReport_run (o : Options) (directives : Option String) (s : Surroundings) (onTerminal : Bool) :
    MayReport o directives s onTerminal ((run o s onTerminal).filtered (.ofRun o.verbose directives)) :=
  ⟨_, s.completes_inOrder o.jobs o.inputNames, rfl⟩

/-- The parts of a report, where all schedules give the same. -/
theorem MayReport.parts {o : Options} {directives : Option String} {s : Surroundings} {onTerminal : Bool} {r : Report}
    {collected : List Collected} (h : MayReport o directives s onTerminal r)
    (hresult : ∀ moves, s.Completes o.jobs o.inputNames moves →
      (s.collectPooled o.jobs o.inputNames moves).result = collected) :
    r.output = String.join (collected.map fun c => c.block (o.layout onTerminal)) ∧
      r.notices = String.join (collected.map fun c => c.notice (o.layout onTerminal)) ∧
      r.exitCode = if collected.any Collected.failed && !o.skipInvalid then 1 else 0 := by
  obtain ⟨moves, hmoves, rfl⟩ := h
  rw [Report.output_filtered, Report.notices_filtered, ← hresult moves hmoves]
  exact ⟨output_report o onTerminal _, notices_report o onTerminal _, rfl⟩

end Pinpoint
