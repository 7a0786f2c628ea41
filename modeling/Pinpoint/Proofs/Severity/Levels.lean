import Mathlib.Data.List.Infix
import Pinpoint.Severity.Basic

/-!
# Levels and their words

A level has the severity of the first of three words that it mentions, in letters of either case. That holds of the
levels with a severity of their own too, so the table of these agrees with the search for words; and since a longer
level mentions all that a part of it mentions, what is put around a level never makes it less grave
(`ofLevel_mentions`).
-/

namespace Pinpoint.Severity

variable {level word : String}

/-! ## Words -/

/-- What is looked for is found wherever it stands. -/
theorem occurs_iff_infix {word cs : List Char} : occurs word cs = true ↔ word <:+: cs := by
  induction cs with
  | nil => simp [occurs]
  | cons c cs ih => rw [occurs, Bool.or_eq_true, List.isPrefixOf_iff_prefix, ih, List.infix_cons_iff]

/-- The level with its ASCII letters in lower case. -/
def lowered (level : String) : List Char := level.toList.map Char.toLower

/-- The word stands somewhere in the level, in letters of either case. -/
def Mentions (level word : String) : Prop := word.toList <:+: lowered level

instance (level word : String) : Decidable (Mentions level word) := inferInstanceAs (Decidable (_ <:+: _))

theorem occurs_lowered : occurs word.toList (level.toList.map Char.toLower) = true ↔ Mentions level word :=
  occurs_iff_infix

/-- What a part of a level mentions, the level mentions. -/
theorem Mentions.append (h : Mentions level word) (before after : String) :
    Mentions (before ++ level ++ after) word := by
  have hpart : lowered level <:+: lowered (before ++ level ++ after) := by
    simp only [lowered, String.toList_append, List.map_append]
    exact List.infix_append _ _ _
  exact h.trans hpart

/-! ## Severities -/

/-- Only the mentioned words count. -/
theorem closest_eq (level : String) :
    closest level =
      if Mentions level "error" then .error
      else if Mentions level "warn" then .warning
      else if Mentions level "help" then .help
      else .info := by
  simp only [closest, occurs_lowered]

/-- A level with a severity of its own mentions the word of it. -/
theorem closest_of_known {s : Severity} (h : ofKnownLevel? level = some s) : closest level = s := by
  unfold ofKnownLevel? at h
  split at h
  case h_7 => cases h
  all_goals
    cases h
    rfl

/-- The table of levels and the search for words agree. -/
theorem ofLevel_eq_closest (level : String) : ofLevel level = closest level := by
  rw [ofLevel]
  cases h : ofKnownLevel? level with
  | none => rfl
  | some s => exact (closest_of_known h).symm

/-! ## Precedence -/

/-- The place of a severity in the order in which words are looked for, the gravest first. It is not that of `rank`. -/
def precedence : Severity → Nat
  | .error => 0
  | .warning => 1
  | .help => 2
  | .info => 3

/-- The words are looked for one after another. -/
theorem precedence_closest (level : String) :
    (closest level).precedence = ["error", "warn", "help"].findIdx fun word => Mentions level word := by
  rw [closest_eq]
  split_ifs with herror hwarn hhelp
  · simp [List.findIdx_cons, precedence, herror]
  · simp [List.findIdx_cons, precedence, herror, hwarn]
  · simp [List.findIdx_cons, precedence, herror, hwarn, hhelp]
  · simp [List.findIdx_cons, precedence, herror, hwarn, hhelp]

/-- A level that mentions more is no less grave. -/
theorem precedence_closest_le {level' : String} (h : ∀ word, Mentions level word → Mentions level' word) :
    (closest level').precedence ≤ (closest level).precedence := by
  rw [precedence_closest, precedence_closest]
  apply List.findIdx_le_findIdx
  intro word _ hword
  exact decide_eq_true (h word (of_decide_eq_true hword))

/-- **Levels are told by their words.** Every level has the severity of the first word that it mentions among those for
errors, warnings and help, and is for information if it mentions none, whether it has a severity of its own or not. So
the case of its letters does not count, and with other text around it a level never comes later in that order. -/
theorem ofLevel_mentions (level : String) :
    (ofLevel level =
        if Mentions level "error" then .error
        else if Mentions level "warn" then .warning
        else if Mentions level "help" then .help
        else .info) ∧
      (∀ level' : String, lowered level' = lowered level → ofLevel level' = ofLevel level) ∧
      ∀ before after : String, (ofLevel (before ++ level ++ after)).precedence ≤ (ofLevel level).precedence := by
  refine ⟨(ofLevel_eq_closest level).trans (closest_eq level), ?_, ?_⟩
  · intro level' hlower
    have hwords : ∀ word, Mentions level' word ↔ Mentions level word := by
      intro word
      rw [Mentions, Mentions, hlower]
    simp only [ofLevel_eq_closest, closest_eq, hwords]
  · intro before after
    rw [ofLevel_eq_closest, ofLevel_eq_closest]
    apply precedence_closest_le
    intro word hword
    exact hword.append before after

/-- A note in capitals that is put into a text with a warning in it. -/
theorem ofLevel_mentions_failure :
    ofLevel "Failure-NOTE" = .info ∧ ofLevel "failure-note" = .info ∧ ofLevel "forewarned: failure-note!" = .warning ∧
      (ofLevel ("forewarned: " ++ "failure-note" ++ "!")).precedence ≤ (ofLevel "failure-note").precedence := by
  obtain ⟨hwords, hcase, haround⟩ := ofLevel_mentions "failure-note"
  have hinfo : ofLevel "failure-note" = .info := hwords.trans (by decide)
  exact ⟨(hcase "Failure-NOTE" (by decide)).trans hinfo, hinfo, by decide, haround "forewarned: " "!"⟩

end Pinpoint.Severity
