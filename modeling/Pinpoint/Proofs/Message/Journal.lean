import Pinpoint.Proofs.Message.Acceptance
import Pinpoint.Proofs.Message.Beginnings
import Pinpoint.Proofs.Message.Mirror

/-!
# The log of a text

A text is read record by record, up to its end or to the first record at fault; the records before that are its leading
ones (`Leads`), and there is one list of these (`Leads.unique`, `leads_leading`). The log has the events of each
leading record, with its number, and then one event for the whole text if all its records were good (`events_ofText`).
So it accounts for each leading record exactly once, in order, and adds up (`ofText_accounted`).
-/

namespace Pinpoint

open Json (Value Stream SpellsStream)

/-! ## Events of single records -/

namespace Event

/-- A diagnostic was read. -/
def isRead : Event → Bool
  | .recordRead _ _ _ => true
  | _ => false

/-- A record was skipped. -/
def isSkip : Event → Bool
  | .recordSkipped _ => true
  | _ => false

/-- The event tells what became of a record. -/
def isAccount (e : Event) : Bool := e.isRead || e.isSkip

/-- The event tells how many diagnostics and records there were in the whole text. -/
structure Concludes (diagnostics records : Nat) (e : Event) : Prop where
  eq : e = .streamRead diagnostics records
  importance : e.importance = .debug
  text : e.text = "parsed " ++ diagnostics.repr ++ " diagnostic(s) from " ++ records.repr ++ " record(s)"

/-- No account is a warning. -/
theorem isAccount_of_warn {e : Event} (h : e.importance = .warn) : e.isAccount = false := by
  cases e with
  | recordRead _ _ _ | recordSkipped _ => cases h
  | _ => rfl

end Event

/-- What is put right in a span: its range, and what is to be put right in the spans that it is linked to. -/
theorem Span.repairs_eq (s : Span) :
    s.repairs = SourceRange.repairs s.start s.stop ++ ((s.linked? .invocation).map repairs).getD [] ++
      ((s.linked? .definition).map repairs).getD [] := by
  obtain ⟨_, _, _, _, _, invocation, definition⟩ := s
  cases invocation <;> cases definition <;> rfl

/-- Whatever is put right in a span leaves a warning. -/
theorem Span.importance_repairs (s : Span) : ∀ e ∈ s.repairs, e.importance = .warn := by
  induction s using linked_induction with
  | _ s ih =>
    have hlinked : ∀ l, ∀ e ∈ ((s.linked? l).map repairs).getD [], e.importance = .warn := by
      intro l e he
      cases hl : s.linked? l with
      | none =>
        rw [hl] at he
        cases he
      | some t =>
        rw [hl] at he
        exact ih l t hl e he
    intro e he
    rw [repairs_eq, List.mem_append, List.mem_append] at he
    rcases he with (he | he) | he
    · unfold SourceRange.repairs at he
      split at he
      · rw [List.mem_singleton.mp he]
        rfl
      · cases he
    · exact hlinked .invocation e he
    · exact hlinked .definition e he

/-- So does whatever is put right in a diagnostic. -/
theorem Diagnostic.importance_repairs (d : Diagnostic) : ∀ e ∈ d.repairs, e.importance = .warn := by
  intro e he
  simp only [repairs, List.mem_append, List.mem_flatMap] at he
  rcases he with ((he | he) | ⟨c, -, he⟩) | ⟨s, -, he⟩
  · unfold Severity.repairs at he
    split at he
    · cases he
    · rw [List.mem_singleton.mp he]
      rfl
  · cases hcode : d.code with
    | odd v =>
      rw [hcode, Code.repairs, List.mem_singleton] at he
      rw [he]
      rfl
    | absent | named _ => rw [hcode] at he; cases he
  · unfold Child.repairs at he
    split at he
    · rw [List.mem_singleton.mp he]
      rfl
    · cases he
  · exact s.importance_repairs e he

/-- What the log says of a record with this number: nothing if it is at fault. -/
def Record.events (number : Nat) (v : Value) : List Event :=
  match ofJson v with
  | .skipped reason => [.recordSkipped reason]
  | .diagnostic w =>
    match Diagnostic.ofJson w with
    | .error _ => []
    | .ok d => .recordRead number d.level d.message :: d.repairs

/-- The event is the account of the record. If the record was skipped, it is a debug event that tells the reason; if it
was read, a trace event that tells its number with the level and the message of its diagnostic. -/
inductive Record.Accounts (number : Nat) (v : Value) (e : Event) : Prop
  | skipped {reason : String} : v.get? "reason" = some (.text reason) → reason ≠ "compiler-message" →
      e = .recordSkipped reason → e.importance = .debug →
      e.text = "skipping cargo message with reason " ++ Text.quote reason → Accounts number v e
  | read {w : Value} {level message : String} : payload? v = some w → w.field? "level" 2 = some (.text level) →
      w.field? "message" 0 = some (.text message) → e = .recordRead number level message → e.importance = .trace →
      e.text = "record #" ++ number.repr ++ ": " ++ level ++ " " ++ Text.quote message → Accounts number v e

/-- A record is skipped for a reason of its own. -/
theorem Record.reason_of_skipped {v : Value} {reason : String} (h : ofJson v = .skipped reason) :
    v.get? "reason" = some (.text reason) ∧ reason ≠ "compiler-message" := by
  by_cases hreason : ∃ r, v.get? "reason" = some (.text r)
  · obtain ⟨r, hr⟩ := hreason
    rw [ofJson_of_reason hr] at h
    split at h
    · cases h
    · next hne =>
      cases h
      exact ⟨hr, hne⟩
  · rw [ofJson_of_bare fun r hr => hreason ⟨r, hr⟩] at h
    cases h

namespace Message

section Records

variable {number : Nat} {v : Value} {x : Option Message}

/-- The log has one account of a good record. -/
theorem accounts_events (h : ofRecord v = .ok x) :
    ∃ e, Record.Accounts number v e ∧ (Record.events number v).filter Event.isAccount = [e] := by
  rcases ofRecord_eq_ok_iff.mp h with ⟨reason, hv, -⟩ | ⟨w, d, hv, hd, -⟩
  · obtain ⟨hreason, hne⟩ := Record.reason_of_skipped hv
    refine ⟨.recordSkipped reason, .skipped hreason hne rfl rfl rfl, ?_⟩
    simp only [Record.events, hv]
    rfl
  · have hreading := Diagnostic.ofJson_eq_ok_iff.mp hd
    have hrepairs : d.repairs.filter Event.isAccount = [] := by
      rw [List.filter_eq_nil_iff]
      intro e he
      rw [Event.isAccount_of_warn (d.importance_repairs e he)]
      exact Bool.false_ne_true
    have hpayload : Record.payload? v = some w := by rw [Record.payload?, hv]
    have hlevel := hreading.level.eq_text
    have hmessage := hreading.message.eq_text
    refine ⟨.recordRead number d.level d.message, .read hpayload hlevel hmessage rfl rfl rfl, ?_⟩
    simp only [Record.events, hv, hd]
    rw [List.filter_cons_of_pos rfl, hrepairs]

/-- It says that a diagnostic was read if it was. -/
theorem countP_isRead_events (h : ofRecord v = .ok x) :
    (Record.events number v).countP Event.isRead = x.toList.length := by
  rcases ofRecord_eq_ok_iff.mp h with ⟨reason, hv, rfl⟩ | ⟨w, d, hv, hd, rfl⟩
  · simp only [Record.events, hv]
    rfl
  · have hrepairs : d.repairs.countP Event.isRead = 0 := by
      rw [List.countP_eq_zero]
      intro e he hread
      have haccount := Event.isAccount_of_warn (d.importance_repairs e he)
      rw [Event.isAccount, hread] at haccount
      cases haccount
    simp only [Record.events, hv, hd]
    rw [List.countP_cons_of_pos rfl, hrepairs]
    rfl

/-- What the log says of a record besides is a warning. -/
theorem account_or_warn_of_mem_events {e : Event} (he : e ∈ Record.events number v) :
    e.isAccount = true ∨ e.importance = .warn := by
  unfold Record.events at he
  split at he
  · exact .inl (List.mem_singleton.mp he ▸ rfl)
  · split at he
    · cases he
    · next d _ =>
      rcases List.mem_cons.mp he with rfl | he
      · exact .inl rfl
      · exact .inr (d.importance_repairs e he)

end Records

/-! ## Leading records -/

/-- The values of a stream before its end, its fault or the first one that is no record. -/
def leading : Stream → List Value
  | .finished _ | .broken _ _ => []
  | .value _ v rest =>
    match ofRecord v with
    | .error _ => []
    | .ok _ => v :: leading rest

theorem leading_of_ok {start : Nat} {v : Value} {rest : Stream} {x : Option Message} (h : ofRecord v = .ok x) :
    leading (.value start v rest) = v :: leading rest := by
  rw [leading, h]

/-- What leads is good. -/
theorem fits_leading (s : Stream) : ∀ v ∈ leading s, Record.Fits v := by
  induction s with
  | finished _ | broken _ _ => exact List.forall_mem_nil _
  | value start v rest ih =>
    cases hx : ofRecord v with
    | error m =>
      rw [leading, hx]
      exact List.forall_mem_nil _
    | ok x =>
      rw [leading_of_ok hx, List.forall_mem_cons]
      exact ⟨ofRecord_isOk_iff.mp ⟨x, hx⟩, ih⟩

/-- In an accepted stream all values lead, and what follows it goes on leading. -/
theorem leading_follow {s : Stream} {vs : List Value} {ms : List Message} (hvs : s.values? = some vs)
    (hg : Gives vs ms) (next : Nat → Stream) : leading (s.follow next) = vs ++ leading (next s.stop) := by
  induction s generalizing vs ms with
  | finished stop =>
    cases hvs
    rfl
  | broken start fault => cases hvs
  | value start v rest ih =>
    obtain ⟨us, hus, rfl⟩ := Stream.values?_value.mp hvs
    cases hg with
    | cons hx hg => rw [Stream.follow, leading_of_ok hx, ih hus hg, Stream.stop, List.cons_append]

theorem leading_of_gives {s : Stream} {vs : List Value} {ms : List Message} (hvs : s.values? = some vs)
    (hg : Gives vs ms) : leading s = vs := by
  induction s generalizing vs ms with
  | finished stop =>
    cases hvs
    rfl
  | broken start fault => cases hvs
  | value start v rest ih =>
    obtain ⟨us, hus, rfl⟩ := Stream.values?_value.mp hvs
    cases hg with
    | cons hx hg => rw [leading_of_ok hx, ih hus hg]

/-- A stream is refused for the record after the leading ones. -/
theorem Refused.eq_length_leading {k r o : Nat} {s : Stream} {flaw : Flaw} (h : Refused k s r o flaw) :
    r = k + (leading s).length + 1 := by
  induction h with
  | fault => rfl
  | mismatch hv => rw [leading, hv]; rfl
  | later hv _ ih =>
    rw [leading_of_ok hv, List.length_cons]
    omega

/-- The values are the leading records of the text: it begins with them, and however far it begins with good records,
these are among them. -/
structure Leads (s : String) (vs : List Value) : Prop where
  begins : ∃ before after, s = before ++ after ∧ SpellsStream before.toList vs
  fits : ∀ v ∈ vs, Record.Fits v
  farthest : ∀ before after us, s = before ++ after → SpellsStream before.toList us → (∀ v ∈ us, Record.Fits v) →
    us <+: vs

/-- Only one list of values leads a text. -/
theorem Leads.unique {s : String} {vs us : List Value} (hvs : Leads s vs) (hus : Leads s us) : vs = us := by
  obtain ⟨before, after, hs, hspells⟩ := hvs.begins
  obtain ⟨before', after', hs', hspells'⟩ := hus.begins
  have hprefix : vs <+: us := hus.farthest before after vs hs hspells hvs.fits
  have hprefix' : us <+: vs := hvs.farthest before' after' us hs' hspells' hus.fits
  exact hprefix.eq_of_length_le hprefix'.length_le

/-- A text with good records at its beginning is led by them. -/
theorem leading_of_begins {before after : String} {us : List Value} {ms : List Message}
    (hus : SpellsStream before.toList us) (hg : Gives us ms) :
    ∃ rest, leading (Stream.ofText (before ++ after)) = us ++ rest := by
  have hvalues := Stream.values?_ofText_iff.mpr hus
  rw [Stream.ofText, String.toList_append, Stream.run_append Json.holds_idle _ _ hvalues hg.isLoose]
  exact ⟨_, leading_follow hvalues hg _⟩

/-- **What leads the stream of a text leads the text.** -/
theorem leads_leading (s : String) : Leads s (leading (Stream.ofText s)) where
  begins := by
    cases hresult : (ofRecords 0 (Stream.ofText s)).result with
    | ok p =>
      obtain ⟨ms, n⟩ := p
      obtain ⟨vs, hvs, hg, -⟩ := ofRecords_eq_ok_iff.mp hresult
      rw [leading_of_gives hvs hg]
      exact ⟨s, "", String.append_empty.symm, Stream.values?_ofText_iff.mp hvs⟩
    | error e =>
      obtain ⟨r, o, flaw, -, hrefused⟩ := exists_refused hresult
      have hr := hrefused.eq_length_leading
      rcases hrefused.cut Json.holds_idle with ⟨hfirst, -⟩ | ⟨p, q, vs, ms, hs, hp, hg, hr', -, -⟩
      · have hnil : leading (Stream.ofText s) = [] := List.eq_nil_of_length_eq_zero (by omega)
        rw [hnil]
        exact ⟨"", s, String.empty_append.symm, .done .nil⟩
      · have hspells : SpellsStream (String.ofList p).toList vs := by
          rw [String.toList_ofList]
          exact Stream.spells_of_values?_run Json.holds_idle p hp
        have hjoin : s = String.ofList p ++ String.ofList q := by
          rw [← String.ofList_append, ← hs, String.ofList_toList]
        obtain ⟨rest, hrest⟩ := @leading_of_begins _ (String.ofList q) _ _ hspells hg
        rw [← hjoin] at hrest
        have hlength := congrArg List.length hrest
        rw [List.length_append] at hlength
        have hnil : rest = [] := List.eq_nil_of_length_eq_zero (by omega)
        rw [hrest, hnil, List.append_nil]
        exact ⟨_, _, hjoin, hspells⟩
  fits := fits_leading _
  farthest := by
    intro before after us hs hus hfits
    obtain ⟨ms, hg⟩ := exists_gives_iff.mpr hfits
    obtain ⟨rest, hrest⟩ := @leading_of_begins _ after _ _ hus hg
    rw [hs, hrest]
    exact List.prefix_append us rest

/-! ## The log -/

/-- The events of records one after another, numbered from the one after the first `before`. -/
def journal (before : Nat) (vs : List Value) : List Event :=
  (vs.zipIdx (before + 1)).flatMap fun p => Record.events p.2 p.1

theorem journal_cons (before : Nat) (v : Value) (vs : List Value) :
    journal before (v :: vs) = Record.events (before + 1) v ++ journal (before + 1) vs := by
  rw [journal, List.zipIdx_cons, List.flatMap_cons]
  rfl

/-- **The log of a stream is that of its leading records.** -/
theorem events_ofRecords (k : Nat) (s : Stream) : (ofRecords k s).events = journal k (leading s) := by
  induction s generalizing k with
  | finished _ | broken _ _ => rfl
  | value start v rest ih =>
    cases hv : Record.ofJson v with
    | skipped reason =>
      have hx : ofRecord v = .ok none := by rw [ofRecord, hv]
      simp only [ofRecords, hv, Logged.prepend, ih, leading_of_ok hx, journal_cons, Record.events]
    | diagnostic w =>
      cases hd : Diagnostic.ofJson w with
      | error m =>
        have hx : ofRecord v = .error m := by
          rw [ofRecord, hv]
          simp only [hd]
          rfl
        simp only [ofRecords, hv, hd, leading, hx]
        rfl
      | ok d =>
        have hx : ofRecord v = .ok (some (ofDiagnostic d)) := by
          rw [ofRecord, hv]
          simp only [hd]
          rfl
        simp only [ofRecords, hv, hd, ih, leading_of_ok hx, journal_cons, Record.events]

/-- The event of the whole text comes last, if there are messages. -/
theorem events_ofText (s : String) :
    (ofText s).events = journal 0 (leading (Stream.ofText s)) ++
      match (ofText s).result with
      | .error _ => []
      | .ok ms => [.streamRead ms.length (leading (Stream.ofText s)).length] := by
  rw [← events_ofRecords]
  simp only [ofText, ofStream]
  cases hresult : (ofRecords 0 (Stream.ofText s)).result with
  | error e => simp
  | ok p =>
    obtain ⟨ms, n⟩ := p
    obtain ⟨vs, hvs, hg, rfl⟩ := ofRecords_eq_ok_iff.mp hresult
    simp only [leading_of_gives hvs hg, Nat.zero_add]

/-- Each record has its account in the journal, with its number. -/
theorem accounts_journal {vs : List Value} (h : ∀ v ∈ vs, Record.Fits v) (before : Nat) :
    List.Forall₂ (fun p e => Record.Accounts p.2 p.1 e) (vs.zipIdx (before + 1))
      ((journal before vs).filter Event.isAccount) := by
  induction vs generalizing before with
  | nil => exact .nil
  | cons v vs ih =>
    obtain ⟨hv, hvs⟩ := List.forall_mem_cons.mp h
    obtain ⟨x, hx⟩ := ofRecord_isOk_iff.mpr hv
    obtain ⟨e, haccounts, he⟩ := @accounts_events (before + 1) _ _ hx
    rw [journal_cons, List.filter_append, he, List.zipIdx_cons, List.singleton_append]
    exact .cons haccounts (ih hvs (before + 1))

/-- There are as many diagnostics read as messages. -/
theorem Gives.countP_journal {vs : List Value} {ms : List Message} (h : Gives vs ms) (before : Nat) :
    (journal before vs).countP Event.isRead = ms.length := by
  induction h generalizing before with
  | nil => rfl
  | cons hx _ ih => rw [journal_cons, List.countP_append, countP_isRead_events hx, ih, List.length_append]

theorem account_or_warn_of_mem_journal {before : Nat} {vs : List Value} {e : Event} (he : e ∈ journal before vs) :
    e.isAccount = true ∨ e.importance = .warn := by
  obtain ⟨p, -, hp⟩ := List.mem_flatMap.mp he
  exact account_or_warn_of_mem_events hp

/-- The event of the whole text is none of the journal. -/
theorem streamRead_not_mem_journal (before : Nat) (vs : List Value) (m n : Nat) :
    Event.streamRead m n ∉ journal before vs := by
  intro hmem
  rcases account_or_warn_of_mem_journal hmem with haccount | hwarn
  · cases haccount
  · cases hwarn

/-- Apart from accounts and warnings there is nothing in the log but the event of the whole text. -/
theorem mem_events_ofText {s : String} {e : Event} (he : e ∈ (ofText s).events) :
    e.isAccount = true ∨ e.importance = .warn ∨ ∃ m n, e = .streamRead m n := by
  rw [events_ofText, List.mem_append] at he
  rcases he with he | he
  · rcases account_or_warn_of_mem_journal he with haccount | hwarn
    · exact .inl haccount
    · exact .inr (.inl hwarn)
  · cases hresult : (ofText s).result with
    | error _ =>
      rw [hresult] at he
      cases he
    | ok ms =>
      rw [hresult] at he
      exact .inr (.inr ⟨_, _, List.mem_singleton.mp he⟩)

/-- What is accounted for was read or skipped. -/
theorem length_filter_isAccount (es : List Event) :
    (es.filter Event.isAccount).length = es.countP Event.isRead + es.countP Event.isSkip := by
  induction es with
  | nil => rfl
  | cons e es ih =>
    rw [List.countP_cons, List.countP_cons]
    cases e <;> simp [Event.isAccount, Event.isRead, Event.isSkip] at ih ⊢ <;> omega

/-- The event of the whole text is no account. -/
theorem filter_isAccount_ofText (s : String) :
    (ofText s).events.filter Event.isAccount = (journal 0 (leading (Stream.ofText s))).filter Event.isAccount := by
  rw [events_ofText, List.filter_append]
  cases (ofText s).result <;> simp [Event.isAccount, Event.isRead, Event.isSkip]

/-- A text is refused for the record after its leading ones. -/
theorem record?_of_error {s : String} {e : ParseError} (h : (ofText s).result = .error e) :
    e.record? = some ((leading (Stream.ofText s)).length + 1) := by
  rw [result_ofText] at h
  cases hrecords : (ofRecords 0 (Stream.ofText s)).result with
  | ok p =>
    rw [hrecords] at h
    cases h
  | error e' =>
    rw [hrecords] at h
    cases h
    obtain ⟨r, o, flaw, rfl, hrefused⟩ := exists_refused hrecords
    rw [ParseError.record?, hrefused.eq_length_leading, Nat.zero_add]

/-- The log of an accepted text is that of all its records, and adds up. -/
theorem events_of_gives {s : String} {vs : List Value} {ms : List Message} (hvs : (Stream.ofText s).values? = some vs)
    (hg : Gives vs ms) :
    (ofText s).events = journal 0 vs ++ [.streamRead ms.length vs.length] ∧
      (ofText s).events.countP Event.isRead = ms.length ∧
      vs.length = ms.length + (ofText s).events.countP Event.isSkip := by
  have hevents := events_ofText s
  rw [ofText_eq_ok_iff.mpr ⟨vs, hvs, hg⟩, leading_of_gives hvs hg] at hevents
  have hread : (ofText s).events.countP Event.isRead = (journal 0 vs).countP Event.isRead := by
    rw [hevents, List.countP_append]
    rfl
  have hskip : (ofText s).events.countP Event.isSkip = (journal 0 vs).countP Event.isSkip := by
    rw [hevents, List.countP_append]
    rfl
  have hlength := (accounts_journal (exists_gives_iff.mp ⟨ms, hg⟩) 0).length_eq
  rw [List.length_zipIdx, length_filter_isAccount, hg.countP_journal] at hlength
  rw [hread, hskip, hg.countP_journal]
  exact ⟨hevents, rfl, hlength⟩

/-- **The log accounts for each record once.** The leading records of a text have their accounts in the log, one each
and in order: a trace event that a diagnostic was read, with the number of the record, or a debug event that the record
was skipped. All other events are warnings, or the one of the whole text. If the text has messages, all its records
lead, and the log ends with the only event of the whole text: it tells as many diagnostics as there are messages and
accounts of diagnostics, and as many records as these and the skipped ones. If the text is refused, it is for the record
after those that are accounted for, and there is no event of the whole text. -/
theorem ofText_accounted (s : String) :
    ∃ vs, Leads s vs ∧
      List.Forall₂ (fun p e => Record.Accounts p.2 p.1 e) (vs.zipIdx 1) ((ofText s).events.filter Event.isAccount) ∧
      (∀ e ∈ (ofText s).events, e.isAccount = true ∨ e.importance = .warn ∨ ∃ m n, e = .streamRead m n) ∧
      (∀ ms, (ofText s).result = .ok ms → SpellsStream s.toList vs ∧
        ms.length = (ofText s).events.countP Event.isRead ∧
        ∃ earlier last, (ofText s).events = earlier ++ [last] ∧
          last.Concludes ms.length (ms.length + (ofText s).events.countP Event.isSkip) ∧
          ∀ m n, .streamRead m n ∉ earlier) ∧
      ∀ e, (ofText s).result = .error e → e.record? = some (((ofText s).events.filter Event.isAccount).length + 1) ∧
        ∀ m n, .streamRead m n ∉ (ofText s).events := by
  have hleads := leads_leading s
  have haccounts := accounts_journal hleads.fits 0
  have hlength := haccounts.length_eq
  rw [List.length_zipIdx] at hlength
  refine ⟨_, hleads, ?_, fun e => mem_events_ofText, ?_, ?_⟩
  · rw [filter_isAccount_ofText]
    exact haccounts
  · intro ms hms
    obtain ⟨vs, hvs, hg⟩ := ofText_eq_ok_iff.mp hms
    obtain ⟨hevents, hread, hsum⟩ := events_of_gives hvs hg
    rw [leading_of_gives hvs hg, ← hsum]
    exact ⟨Stream.values?_ofText_iff.mp hvs, hread.symm, journal 0 vs, _, hevents, ⟨rfl, rfl, rfl⟩,
      streamRead_not_mem_journal 0 vs⟩
  · intro e he
    have hevents := events_ofText s
    rw [he, List.append_nil] at hevents
    rw [record?_of_error he, filter_isAccount_ofText, hevents, hlength]
    exact ⟨rfl, streamRead_not_mem_journal 0 _⟩

/-- A note with an odd code and a skipped record, alone and in front of a list that does not end. -/
theorem ofText_accounted_skipped :
    (∃ earlier last, (ofText "[\"m\",[],\"note\"]\x7b\"reason\":\"r\"\x7d").events = earlier ++ [last] ∧
        last.importance = .debug ∧ last.text = "parsed 1 diagnostic(s) from 2 record(s)") ∧
      ∃ e, (ofText "[\"m\",[],\"note\"]\x7b\"reason\":\"r\"\x7d[").result = .error e ∧ e.record? = some 3 ∧
        ∀ m n, .streamRead m n ∉ (ofText "[\"m\",[],\"note\"]\x7b\"reason\":\"r\"\x7d[").events := by
  constructor
  · obtain ⟨_, -, -, -, hgood, -⟩ := ofText_accounted "[\"m\",[],\"note\"]\x7b\"reason\":\"r\"\x7d"
    obtain ⟨-, -, earlier, last, hevents, hlast, -⟩ := hgood [⟨"m", .info, none, none, []⟩] rfl
    have hskip : (ofText "[\"m\",[],\"note\"]\x7b\"reason\":\"r\"\x7d").events.countP Event.isSkip = 1 := rfl
    rw [hskip] at hlast
    exact ⟨earlier, last, hevents, hlast.importance, hlast.text.trans (by decide)⟩
  · obtain ⟨_, -, -, -, -, hrefused⟩ := ofText_accounted "[\"m\",[],\"note\"]\x7b\"reason\":\"r\"\x7d["
    obtain ⟨hrecord, hnone⟩ := hrefused (.malformed 3 29 (.fault ⟨.endInList, 1, 30⟩)) rfl
    exact ⟨_, rfl, hrecord, hnone⟩

end Message

end Pinpoint
