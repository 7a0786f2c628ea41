import Pinpoint.Input.Collection

/-!
# Sources of inputs

All that inputs have in common is the standard input. So an input finds its source whatever was read before it, but for
the standard input (`getElem?_sources`), and inputs of which at most one reads that each give what they give alone
(`result_collect_of_once`). Where no file name leads to it, this says that its own name is among them at most once
(`once_of_count`).
-/

namespace Pinpoint

/-- The result goes by the name of its input. -/
theorem Source.name_collect (x : Source) : x.collect.result.name = x.name := by
  unfold collect
  split <;> rfl

namespace Surroundings

variable {s : Surroundings} {stdin : List Delivery} {name : String} {names : List String}

/-- The name stands for the standard input: it is the name for it among the inputs, or leads to it as a file name. -/
def readsStdin (s : Surroundings) (name : String) : Bool :=
  match s.supply name with
  | .ok .stdin => true
  | _ => false

/-- What inputs leave on the standard input. -/
def left (s : Surroundings) (stdin : List Delivery) (names : List String) : List Delivery :=
  if names.any s.readsStdin then [] else stdin

/-- Surroundings in which no file can be found. -/
def withoutFiles (stdin : List Delivery) : Surroundings := ⟨fun _ => .error .notFound, stdin⟩

/-- What an input gives that is read before all others. -/
def alone (s : Surroundings) (name : String) : Collected := (s.source s.stdin name).1.collect.result

/-- Where no file name leads to the standard input, it is read as often as its own name is among the inputs. -/
theorem countP_readsStdin (hfiles : ∀ name, s.openName name ≠ .ok .stdin) (names : List String) :
    names.countP s.readsStdin = names.count standardInput := by
  refine List.countP_congr fun name _ => ?_
  unfold readsStdin supply
  by_cases hname : name = standardInput
  · simp [hname]
  · simp only [hname, if_false, beq_iff_eq]
    split
    · next h => exact absurd h (hfiles name)
    · exact iff_of_false Bool.false_ne_true id

/-- Then its own name at most once among the inputs is enough for it to be read at most once. -/
theorem once_of_count (hfiles : ∀ name, s.openName name ≠ .ok .stdin) (hcount : names.count standardInput ≤ 1) :
    names.countP s.readsStdin ≤ 1 := by
  rwa [countP_readsStdin hfiles]

/-- No name leads to the standard input where none leads anywhere. -/
theorem openName_withoutFiles (stdin : List Delivery) (name : String) :
    (withoutFiles stdin).openName name ≠ .ok .stdin := by
  simp [withoutFiles]

/-! ## One input -/

theorem name_source (s : Surroundings) (stdin : List Delivery) (name : String) :
    (s.source stdin name).1.name = name := by
  unfold source
  split <;> rfl

/-- Reading an input takes all of the standard input or nothing of it. -/
theorem source_left (s : Surroundings) (stdin : List Delivery) (name : String) :
    (s.source stdin name).2 = s.left stdin [name] := by
  cases hsupply : s.supply name with
  | error f => simp [source, left, readsStdin, hsupply]
  | ok supply => cases supply <;> simp [source, left, readsStdin, hsupply, Supply.take]

/-- What is on the standard input matters only to an input that reads it. -/
theorem source_of_file (hname : s.readsStdin name = false) (stdin stdin' : List Delivery) :
    (s.source stdin name).1 = (s.source stdin' name).1 := by
  unfold source
  unfold readsStdin at hname
  cases hsupply : s.supply name with
  | error f => rfl
  | ok supply =>
    cases supply with
    | own ds => rfl
    | stdin => rw [hsupply] at hname; cases hname

/-! ## Several inputs -/

theorem sources_cons (s : Surroundings) (stdin : List Delivery) (name : String) (names : List String) :
    s.sources stdin (name :: names) = (s.source stdin name).1 :: s.sources (s.left stdin [name]) names := by
  rw [← source_left]
  rfl

/-- The sources go by the names of their inputs. -/
theorem names_sources (s : Surroundings) (stdin : List Delivery) (names : List String) :
    (s.sources stdin names).map Source.name = names := by
  induction names generalizing stdin with
  | nil => rfl
  | cons name names ih => rw [sources_cons, List.map_cons, name_source, ih]

/-- So do the results. -/
theorem names_collect (s : Surroundings) (names : List String) :
    (s.collect names).result.map Collected.name = names := by
  simpa [collect, Function.comp_def, Source.name_collect] using s.names_sources s.stdin names

/-- Each input finds what those before it leave. -/
theorem getElem?_sources (s : Surroundings) (stdin : List Delivery) (names : List String) (i : Nat) :
    (s.sources stdin names)[i]? = names[i]?.map fun name => (s.source (s.left stdin (names.take i)) name).1 := by
  induction names generalizing stdin i with
  | nil => rfl
  | cons name names ih =>
    rw [sources_cons]
    cases i with
    | zero => rfl
    | succ i =>
      have hleft : s.left (s.left stdin [name]) (names.take i) = s.left stdin (name :: names.take i) := by
        unfold left
        cases hname : s.readsStdin name <;> simp [hname]
      rw [List.getElem?_cons_succ, List.getElem?_cons_succ, List.take_succ_cons, ih, hleft]

/-- Where at most one input reads the standard input and finds all of it, each gives what it gives alone. -/
theorem sources_of_once (honce : names.countP s.readsStdin ≤ 1) (hstdin : names.any s.readsStdin → stdin = s.stdin) :
    (s.sources stdin names).map (fun x => x.collect.result) = names.map s.alone := by
  induction names generalizing stdin with
  | nil => rfl
  | cons name names ih =>
    simp only [sources_cons, List.map_cons]
    cases hname : s.readsStdin name with
    | true =>
      have hrest : names.any s.readsStdin = false := by
        rw [List.countP_cons_of_pos hname] at honce
        have hnone : names.countP s.readsStdin = 0 := by omega
        simpa using List.countP_eq_zero.mp hnone
      rw [hstdin (by simp [hname]), ih (by grind) (by simp [hrest])]
      rfl
    | false =>
      have hleft : s.left stdin [name] = stdin := by simp [left, hname]
      rw [List.countP_cons_of_neg (by simp [hname])] at honce
      rw [hleft, ih honce (fun h => hstdin (by simp [h])), alone, source_of_file hname stdin s.stdin]

/-- So it is with the standard input as it is found. -/
theorem result_collect_of_once (honce : names.countP s.readsStdin ≤ 1) :
    (s.collect names).result = names.map s.alone := by
  rw [← sources_of_once honce fun _ => rfl, collect, List.map_map]
  rfl

end Surroundings

end Pinpoint
