import Pinpoint.Proofs.Message.Beginnings
import Pinpoint.Proofs.Message.Likeness

/-!
# The code decides on nothing but itself

Whatever value is put in the place of the code of a diagnostic, or if the code is taken away, the text is accepted or
refused as before; and if it is accepted, only the code of that one message changes (`ofText_recoded`). Values are those
of the grammar, so a code that is no JSON is a fault like any other.
-/

namespace Pinpoint

open Json (Value Stream SpellsStream)

/-! ## Diagnostics -/

/-- The second object has the value as its `code`, or none, and all other members of the first one. -/
structure Diagnostic.Recoded (code? : Option Value) (ms ms' : List (String × Value)) : Prop where
  code : ms'.lookup "code" = code?
  others : ∀ name, name ≠ "code" → ms'.lookup name = ms.lookup name

/-- A code is set by putting it in the place of the one before. -/
theorem Diagnostic.recoded_insert (c : Value) (ms : List (String × Value)) :
    Recoded (some c) ms (Value.insert "code" c ms) := by
  refine ⟨?_, fun name hname => ?_⟩
  · rw [Value.lookup_insert, if_pos rfl]
  · rw [Value.lookup_insert, if_neg hname]

/-- The value names a code: it is a text that is not empty, or an object with such a text as its `code`. -/
def Code.Names (code? : Option Value) (name : String) : Prop :=
  name ≠ "" ∧ (code? = some (.text name) ∨
    ∃ members, code? = some (.object members) ∧ members.lookup "code" = some (.text name))

/-- A value has a name, before empty ones are dropped, if it is a text or an object with a text as its `code`. -/
theorem Code.name?_ofJson_eq_some_iff {code? : Option Value} {name : String} :
    (ofJson code?).name? = some name ↔ code? = some (.text name) ∨
      ∃ members, code? = some (.object members) ∧ members.lookup "code" = some (.text name) := by
  cases code? with
  | none => simp [ofJson, Code.name?]
  | some v =>
    cases v with
    | object members =>
      rw [Part.name?_object]
      cases hcode : members.lookup "code" with
      | none => simp [hcode]
      | some w => cases w <;> simp [hcode, Value.text?]
    | text s => simp [ofJson, Code.name?]
    | null | bool _ | number _ | list _ => simp [ofJson, Code.name?]

/-- The code of a message is the name that the value has. -/
theorem Code.filter_name?_eq_some_iff {code? : Option Value} {name : String} :
    (ofJson code?).name?.filter (· ≠ "") = some name ↔ Names code? name := by
  rw [Option.filter_eq_some_iff, name?_ofJson_eq_some_iff, Names, and_comm]
  simp

/-- **A diagnostic with another code is read like the one before**: to a diagnostic that differs in its code, or to the
same mismatch. -/
theorem Diagnostic.ofJson_recoded {code? : Option Value} {ms ms' : List (String × Value)} (h : Recoded code? ms ms') :
    ofJson (.object ms') = (fun d => { d with code := Code.ofJson code? }) <$> ofJson (.object ms) := by
  simp only [ofJson, h.code, h.others "children" (by decide), h.others "level" (by decide),
    h.others "message" (by decide), h.others "spans" (by decide), map_bind, map_pure]

/-! ## Records -/

/-- The second record holds the diagnostic of the first one, an object, with another code. -/
inductive Record.Recoded (code? : Option Value) (v v' : Value) : Prop
  | diagnostic {ms ms' : List (String × Value)} : ofJson v = .diagnostic (.object ms) →
      ofJson v' = .diagnostic (.object ms') → Diagnostic.Recoded code? ms ms' → Recoded code? v v'

namespace Message

variable {code? : Option Value} {v v' : Value}

/-- The message differs in its code. -/
theorem ofDiagnostic_recoded (d : Diagnostic) (code : Code) :
    ofDiagnostic { d with code } = { ofDiagnostic d with code := code.name?.filter (· ≠ "") } :=
  rfl

/-- Both records are refused for the same mismatch, or their messages differ in the code. -/
theorem ofRecord_recoded (h : Record.Recoded code? v v') :
    (∃ m, ofRecord v = .error m ∧ ofRecord v' = .error m) ∨
      ∃ m, ofRecord v = .ok (some m) ∧
        ofRecord v' = .ok (some { m with code := (Code.ofJson code?).name?.filter (· ≠ "") }) := by
  obtain ⟨hv, hv', hrecoded⟩ := h
  have hread := Diagnostic.ofJson_recoded hrecoded
  simp only [ofRecord, hv, hv', hread]
  cases Diagnostic.ofJson (.object _) with
  | error m => exact .inl ⟨m, rfl, rfl⟩
  | ok d => exact .inr ⟨ofDiagnostic d, rfl, congrArg (Except.ok ∘ some) (ofDiagnostic_recoded d _)⟩

/-- So it is where other values come before them. -/
theorem ofValues_recoded (h : Record.Recoded code? v v') (us : List Value) :
    (∃ i m, ofValues (us ++ [v]) = .error (i, m) ∧ ofValues (us ++ [v']) = .error (i, m)) ∨
      ∃ before m, Gives us before ∧ Gives (us ++ [v]) (before ++ [m]) ∧
        Gives (us ++ [v']) (before ++ [{ m with code := (Code.ofJson code?).name?.filter (· ≠ "") }]) := by
  cases hus : ofValues us with
  | error e =>
    obtain ⟨i, m⟩ := e
    exact .inl ⟨i, m, ofValues_append_error hus _, ofValues_append_error hus _⟩
  | ok before =>
    have hbefore := gives_iff_ofValues.mpr hus
    rcases ofRecord_recoded h with ⟨m, hv, hv'⟩ | ⟨m, hv, hv'⟩
    · refine .inl ⟨us.length, m, ?_, ?_⟩
      · rw [ofValues_append_singleton hbefore, hv]
      · rw [ofValues_append_singleton hbefore, hv']
    · refine .inr ⟨before, m, hbefore, gives_iff_ofValues.mpr ?_, gives_iff_ofValues.mpr ?_⟩
      · rw [ofValues_append_singleton hbefore, hv]
        rfl
      · rw [ofValues_append_singleton hbefore, hv']
        rfl

/-- A record that holds an object is no loose value. -/
theorem isLoose_of_recoded (h : Record.Recoded code? v v') : v.isLoose = false ∧ v'.isLoose = false := by
  have hloose : ∀ {u : Value} {ms}, Record.ofJson u = .diagnostic (.object ms) → u.isLoose = false := by
    intro u ms hu
    cases u with
    | null | bool _ | number _ => cases hu
    | text _ | list _ | object _ => rfl
  obtain ⟨hv, hv', -⟩ := h
  exact ⟨hloose hv, hloose hv'⟩

/-! ## Texts -/

/-- **The code never decides on acceptance.** Let two texts begin with the same records up to one that holds a
diagnostic as an object, which in the second text has any other code or none, and go on alike. If the first text is
accepted, so is the second, and the messages are the same but for that code: it is the name that the new value has, if
it has one. If the first text is refused, so is the second, at the same record and for a flaw of the same category. -/
theorem ofText_recoded {p p' q : String} {us : List Value} (hp : SpellsStream p.toList (us ++ [v]))
    (hp' : SpellsStream p'.toList (us ++ [v'])) (h : Record.Recoded code? v v') :
    (∀ ms, (ofText (p ++ q)).result = .ok ms → ∃ before m after code, ms = before ++ m :: after ∧ Gives us before ∧
        (ofText (p' ++ q)).result = .ok (before ++ { m with code } :: after) ∧
        ∀ name, code = some name ↔ Code.Names code? name) ∧
      ∀ e, (ofText (p ++ q)).result = .error e → ∃ r o flaw o' flaw', e = .malformed r o flaw ∧
        (ofText (p' ++ q)).result = .error (.malformed r o' flaw') ∧ flaw'.category = flaw.category := by
  obtain ⟨hv, hv'⟩ := isLoose_of_recoded h
  rcases ofValues_recoded h us with ⟨i, m, hvalues, hvalues'⟩ | ⟨before, m, hbefore, hg, hg'⟩
  · obtain ⟨o, ho⟩ := refused_of_begins (q := q) hp (by simp [hv]) hvalues
    obtain ⟨o', ho'⟩ := refused_of_begins (q := q) hp' (by simp [hv']) hvalues'
    constructor
    · intro ms hms
      rw [ho] at hms
      cases hms
    · intro e he
      rw [ho] at he
      cases he
      exact ⟨i + 1, o, _, o', _, rfl, ho', rfl⟩
  · obtain ⟨hok, herror⟩ := ofText_exchange (q := q) hp hp' hg hg' (by simp)
    refine ⟨?_, herror⟩
    intro ms hms
    obtain ⟨after, rfl, hafter⟩ := hok ms hms
    refine ⟨before, m, after, _, by simp, hbefore, ?_, fun name => Code.filter_name?_eq_some_iff⟩
    simpa using hafter

/-- A note gets a code, in front of another note and in front of a list that does not end. -/
theorem ofText_recoded_note :
    (∃ m after,
        (ofText ("\x7b\"message\":\"m\",\"code\":[],\"level\":\"note\"\x7d" ++
          "[\"n\",null,\"note\"]")).result = .ok (m :: after) ∧ m.code = none ∧
        (ofText ("\x7b\"message\":\"m\",\"code\":\x7b\"code\":\"E1\"\x7d,\"level\":\"note\"\x7d" ++
          "[\"n\",null,\"note\"]")).result = .ok ({ m with code := some "E1" } :: after)) ∧
      ∃ o flaw,
        (ofText ("\x7b\"message\":\"m\",\"code\":\x7b\"code\":\"E1\"\x7d,\"level\":\"note\"\x7d" ++ "[")).result =
          .error (.malformed 2 o flaw) ∧ flaw.category = .early := by
  have hp : SpellsStream "\x7b\"message\":\"m\",\"code\":[],\"level\":\"note\"\x7d".toList
      ([] ++ [.object [("code", .list []), ("level", .text "note"), ("message", .text "m")]]) :=
    Stream.values?_ofText_iff.mp rfl
  have hp' : SpellsStream "\x7b\"message\":\"m\",\"code\":\x7b\"code\":\"E1\"\x7d,\"level\":\"note\"\x7d".toList
      ([] ++ [.object (Value.insert "code" (.object [("code", .text "E1")])
        [("code", .list []), ("level", .text "note"), ("message", .text "m")])]) :=
    Stream.values?_ofText_iff.mp rfl
  have hrecoded : Record.Recoded (some (.object [("code", .text "E1")]))
      (.object [("code", .list []), ("level", .text "note"), ("message", .text "m")])
      (.object (Value.insert "code" (.object [("code", .text "E1")])
        [("code", .list []), ("level", .text "note"), ("message", .text "m")])) :=
    .diagnostic rfl rfl (Diagnostic.recoded_insert _ _)
  constructor
  · obtain ⟨before, m, after, code, hms, hbefore, hcoded, hcode⟩ :=
      (ofText_recoded (q := "[\"n\",null,\"note\"]") hp hp' hrecoded).1 _ rfl
    cases hbefore
    obtain ⟨rfl, rfl⟩ := List.cons.inj hms
    obtain rfl := (hcode "E1").mpr ⟨by decide, .inr ⟨_, rfl, rfl⟩⟩
    exact ⟨_, _, rfl, rfl, hcoded⟩
  · obtain ⟨r, o, flaw, o', flaw', he, hrefused, hcategory⟩ :=
      (ofText_recoded (q := "[") hp hp' hrecoded).2 (.malformed 2 40 (.fault ⟨.endInList, 1, 41⟩)) rfl
    cases he
    exact ⟨o', flaw', hrefused, hcategory⟩

end Message

end Pinpoint
