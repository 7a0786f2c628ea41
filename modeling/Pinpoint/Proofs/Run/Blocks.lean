import Pinpoint.Proofs.Message.Deliveries
import Pinpoint.Proofs.Run.Reports

/-!
# Blocks of output

The output of a run that reads one input at a time is one block after the other, in the order of the inputs
(`output_isolated`). The block of an input depends on its bytes and the layout alone (`Layout.blockOf`), and its bytes
are its own (`Surroundings.content`): those of its file, or, for the first input that is the standard input, all that is
on it. So what becomes of one file shows in its own block only.
-/

namespace Pinpoint

open Delivery (Brings)

/-- The block of an input with these bytes; it is empty if there are none to be had, or if they give no messages. -/
def Layout.blockOf (l : Layout) : Option ByteArray → String
  | none => ""
  | some b =>
    match Delivery.decode b with
    | .error _ => ""
    | .ok text =>
      match (Message.ofText text).result with
      | .error _ => ""
      | .ok messages => l.block messages

/-- Without messages the block is empty. -/
theorem Layout.blockOf_eq_empty (l : Layout) {content : Option ByteArray}
    (h : ∀ b text ms, content = some b → Delivery.decode b = .ok text → (Message.ofText text).result ≠ .ok ms) :
    l.blockOf content = "" := by
  cases content with
  | none => rfl
  | some b =>
    simp only [blockOf]
    cases hdecode : Delivery.decode b with
    | error f => rfl
    | ok text =>
      cases hresult : (Message.ofText text).result with
      | error e => simp only [hresult]
      | ok messages => exact absurd hresult (h b text messages rfl hdecode)

namespace Surroundings

variable {s : Surroundings} {b : ByteArray} {l : Layout} {names earlier earlier' : List String} {name : String}

/-- The bytes that an input stands for, where the standard input holds the given ones: none if it cannot be opened or
read. Of the inputs that are the standard input only the first stands for what is on it, and the others for nothing. -/
def content (s : Surroundings) (b : ByteArray) (earlier : List String) (name : String) : Option ByteArray :=
  match s.supply name with
  | .error _ => none
  | .ok (.own ds) => (Delivery.gather ds).toOption
  | .ok .stdin => if earlier.any s.readsStdin then some .empty else some b

/-- The blocks of the inputs. -/
def blocks (s : Surroundings) (l : Layout) (b : ByteArray) (names : List String) : List String :=
  names.mapIdx fun i name => l.blockOf (s.content b (names.take i) name)

/-- The surroundings with something else under the name of a file. -/
def withFile (s : Surroundings) (name : String) (opened : Except OpenFailure Supply) : Surroundings :=
  { s with openName := fun other => if other = name then opened else s.openName other }

/-! ## The block of one input -/

/-- The block of deliveries is that of the bytes that can be gathered from them. -/
theorem block_ofDeliveries (l : Layout) (name : String) (ds : List Delivery) :
    (Source.collect ⟨name, .ok ds⟩).result.block l = l.blockOf (Delivery.gather ds).toOption := by
  simp only [Source.collect, Logged.map, Message.ofDeliveries, Delivery.text]
  cases Delivery.gather ds with
  | error f => rfl
  | ok b =>
    simp only [Except.toOption, Layout.blockOf, bind, Except.bind]
    cases Delivery.decode b with
    | error f => rfl
    | ok text =>
      cases hresult : (Message.ofText text).result <;> simp only [hresult] <;> rfl

/-- The block of an input is that of its bytes. -/
theorem block_source (hstdin : Brings s.stdin b) (l : Layout) (earlier : List String) (name : String) :
    (s.source (s.left s.stdin earlier) name).1.collect.result.block l = l.blockOf (s.content b earlier name) := by
  unfold source content
  cases s.supply name with
  | error f => rfl
  | ok supply =>
    cases supply with
    | own ds => exact block_ofDeliveries l name ds
    | stdin =>
      refine (block_ofDeliveries l name (s.left s.stdin earlier)).trans ?_
      unfold left
      split
      · rfl
      · rw [hstdin.gather]; rfl

/-- The blocks of inputs that are read one after the other. -/
theorem map_block_collect (hstdin : Brings s.stdin b) (l : Layout) (names : List String) :
    ((s.collect names).result.map fun c => c.block l) = s.blocks l b names := by
  refine List.ext_getElem? fun i => ?_
  simp only [collect, blocks, List.map_map, List.getElem?_map, getElem?_sources, List.getElem?_mapIdx, Option.map_map]
  exact congrArg (fun f => names[i]?.map f) (funext fun name => block_source hstdin l (names.take i) name)

/-- What an input stands for depends on what is found under its name and, if that is the standard input, on whether it
was read before. -/
theorem content_congr {s' : Surroundings} (hsupply : s'.supply name = s.supply name)
    (hearlier : earlier'.any s'.readsStdin = earlier.any s.readsStdin) :
    s'.content b earlier' name = s.content b earlier name := by
  unfold content
  rw [hsupply, hearlier]

/-- The standard input stands for what is on it, unless it was read before. -/
theorem content_standardInput (s : Surroundings) (b : ByteArray) (earlier : List String) :
    s.content b earlier standardInput = some (if earlier.any s.readsStdin then .empty else b) := by
  show (if earlier.any s.readsStdin then some ByteArray.empty else some b) = _
  split <;> rfl

/-- What a file stands for does not depend on what was read before. -/
theorem content_of_file (hname : s.readsStdin name = false) (b : ByteArray) (earlier earlier' : List String) :
    s.content b earlier name = s.content b earlier' name := by
  unfold content
  unfold readsStdin at hname
  cases hsupply : s.supply name with
  | error f => rfl
  | ok supply =>
    cases supply with
    | own ds => rfl
    | stdin => rw [hsupply] at hname; cases hname

/-! ## The blocks of several inputs -/

theorem length_blocks (s : Surroundings) (l : Layout) (b : ByteArray) (names : List String) :
    (s.blocks l b names).length = names.length := List.length_mapIdx

/-- The blocks of inputs that come after others. -/
theorem blocks_append (s : Surroundings) (l : Layout) (b : ByteArray) (before after : List String) :
    s.blocks l b (before ++ after) =
      s.blocks l b before ++ after.mapIdx fun i name => l.blockOf (s.content b (before ++ after.take i) name) := by
  refine List.ext_getElem? fun i => ?_
  by_cases hi : i < before.length
  · rw [List.getElem?_append_left (by rwa [length_blocks])]
    simp only [blocks, List.getElem?_mapIdx, List.getElem?_append_left hi,
      List.take_append_of_le_length (Nat.le_of_lt hi)]
  · have hi' : before.length ≤ i := Nat.le_of_not_lt hi
    rw [List.getElem?_append_right (by rwa [length_blocks])]
    simp only [blocks, List.length_mapIdx, List.getElem?_mapIdx, List.getElem?_append_right hi']
    rw [List.take_append, List.take_of_length_le hi']

/-- A file among the inputs shows in its own block only. -/
theorem blocks_insert (hname : s.readsStdin name = false) (l : Layout) (b : ByteArray) (before after : List String) :
    ∃ back, s.blocks l b (before ++ name :: after) = s.blocks l b before ++ l.blockOf (s.content b [] name) :: back ∧
      s.blocks l b (before ++ after) = s.blocks l b before ++ back := by
  refine ⟨_, ?_, s.blocks_append l b before after⟩
  rw [blocks_append, List.mapIdx_cons, content_of_file hname b _ []]
  refine congrArg (fun back => _ ++ _ :: back) (congrArg (fun f => after.mapIdx f) ?_)
  funext i other
  exact congrArg l.blockOf (content_congr rfl (by simp [hname]))

/-- Another file under a name shows in the blocks of that name only. -/
theorem getElem?_blocks_withFile {opened : Except OpenFailure Supply} (hname : s.readsStdin name = false)
    (hopened : opened ≠ .ok .stdin) (l : Layout) (b : ByteArray) {i : Nat} (hi : names[i]? ≠ some name) :
    ((s.withFile name opened).blocks l b names)[i]? = (s.blocks l b names)[i]? := by
  have hother : ∀ other, other ≠ name → (s.withFile name opened).supply other = s.supply other := fun other h => by
    simp [supply, withFile, h]
  have hreads : (s.withFile name opened).readsStdin = s.readsStdin := by
    funext other
    by_cases h : other = name
    · subst h
      have hne : other ≠ standardInput := fun h => by rw [h] at hname; cases hname
      rw [hname]
      simp [readsStdin, supply, withFile, hne]
    · simp only [readsStdin, hother other h]
  simp only [blocks, List.getElem?_mapIdx]
  cases hnames : names[i]? with
  | none => rfl
  | some other =>
    have hne : other ≠ name := fun h => hi (h ▸ hnames)
    exact congrArg (fun c => some (l.blockOf c)) (content_congr (hother other hne) (by rw [hreads]))

end Surroundings

/-! ## Runs -/

/-- One input at a time, the output is one block after the other. -/
theorem MayReport.output_eq {s : Surroundings} {b : ByteArray} (hstdin : Brings s.stdin b) {o : Options}
    (hjobs : o.jobs ≤ 1) {directives : Option String} {onTerminal : Bool} {r : Report}
    (h : MayReport o directives s onTerminal r) :
    r.output = String.join (s.blocks (o.layout onTerminal) b o.inputNames) := by
  rw [(h.parts fun moves => Surroundings.result_of_single hjobs).1, Surroundings.map_block_collect hstdin]

/-- **Each input has a block of its own.** A run that reads one input at a time puts out the blocks of its inputs, one
after the other in their order. Nothing goes into a block but the bytes of its input and the layout, and it is empty
where the bytes give no messages; the first input that is the standard input stands for all that is on it, and every
later one for nothing. So a file that is left out leaves out its own block, and another file in its place changes no
block but those of its name. -/
theorem output_isolated {s : Surroundings} {b : ByteArray} (hstdin : Brings s.stdin b) {o : Options}
    (hjobs : o.jobs ≤ 1) {directives : Option String} {onTerminal : Bool} {r : Report}
    (h : MayReport o directives s onTerminal r) :
    r.output = String.join (s.blocks (o.layout onTerminal) b o.inputNames) ∧
    (∀ content : Option ByteArray,
      (∀ b text ms, content = some b → Delivery.decode b = .ok text → (Message.ofText text).result ≠ .ok ms) →
        (o.layout onTerminal).blockOf content = "") ∧
    (∀ before after : List String, o.inputNames = before ++ standardInput :: after →
      (s.blocks (o.layout onTerminal) b o.inputNames)[before.length]? =
        some ((o.layout onTerminal).blockOf (some (if before.any s.readsStdin then .empty else b)))) ∧
    (∀ before name after, o.inputNames = before ++ name :: after → s.readsStdin name = false →
      ∃ front back, r.output = front ++ (o.layout onTerminal).blockOf (s.content b [] name) ++ back ∧
        ∀ o' directives' r', o'.jobs ≤ 1 → o'.layout onTerminal = o.layout onTerminal →
          o'.inputNames = before ++ after → MayReport o' directives' s onTerminal r' → r'.output = front ++ back) ∧
    ∀ name opened directives' r', s.readsStdin name = false → opened ≠ .ok .stdin →
      MayReport o directives' (s.withFile name opened) onTerminal r' →
        ∃ blocks : List String, r'.output = String.join blocks ∧ blocks.length = o.inputNames.length ∧
          ∀ i : Nat, o.inputNames[i]? ≠ some name →
            blocks[i]? = (s.blocks (o.layout onTerminal) b o.inputNames)[i]? := by
  refine ⟨h.output_eq hstdin hjobs, fun content hcontent => ?_, fun before after hnames => ?_,
    fun before name after hnames hname => ?_, fun name opened directives' r' hname hopened h' => ?_⟩
  · exact Layout.blockOf_eq_empty _ hcontent
  · rw [hnames, Surroundings.blocks_append, List.getElem?_append_right (Nat.le_of_eq (s.length_blocks _ b before)),
      s.length_blocks, Nat.sub_self]
    simp only [List.mapIdx_cons, List.getElem?_cons_zero, List.take_zero, List.append_nil]
    exact congrArg (fun c => some ((o.layout onTerminal).blockOf c)) (s.content_standardInput b before)
  · obtain ⟨back, hwith, hwithout⟩ := Surroundings.blocks_insert hname (o.layout onTerminal) b before after
    refine ⟨String.join (s.blocks (o.layout onTerminal) b before), String.join back, ?_,
      fun o' directives' r' hjobs' hlayout hnames' h' => ?_⟩
    · rw [h.output_eq hstdin hjobs, hnames, hwith, String.join_append, String.join_cons, String.append_assoc]
    · rw [h'.output_eq hstdin hjobs', hlayout, hnames', hwithout, String.join_append]
  · have hstdin' : Brings (s.withFile name opened).stdin b := hstdin
    exact ⟨_, h'.output_eq hstdin' hjobs, Surroundings.length_blocks .., fun i hi =>
      Surroundings.getElem?_blocks_withFile hname hopened _ b hi⟩

/-- A note on the standard input, which is read twice, with a file that is not there in between: the note is shown once,
and after it that there is nothing more. -/
theorem output_isolated_note : ∃ r,
    MayReport { inputs := ["-", "a", "-"], jobs := 0, tree := true } none
        (.withoutFiles [.bytes "[\"m\",null,\"note\"]".toUTF8]) false r ∧
      r.output = (treesJson [⟨"m", .info, none, none, []⟩]).pretty ++ "\n" ++ "[]\n" := by
  have hstdin : Brings [.bytes "[\"m\",null,\"note\"]".toUTF8] ("[\"m\",null,\"note\"]".toUTF8 ++ .empty) :=
    .bytes (by decide) .nothing
  have hblocks := (output_isolated (s := .withoutFiles [.bytes "[\"m\",null,\"note\"]".toUTF8]) hstdin
    (o := { inputs := ["-", "a", "-"], jobs := 0, tree := true }) (by decide) (mayReport_run _ none _ false)).1
  have hdecode : Delivery.decode ("[\"m\",null,\"note\"]".toUTF8 ++ .empty) = .ok "[\"m\",null,\"note\"]" := rfl
  have hnote : (Message.ofText "[\"m\",null,\"note\"]").result = .ok [⟨"m", .info, none, none, []⟩] := rfl
  have hfirst : Layout.blockOf ⟨.plain, false, true⟩ (some ("[\"m\",null,\"note\"]".toUTF8 ++ .empty)) =
      (treesJson [⟨"m", .info, none, none, []⟩]).pretty ++ "\n" := by
    simp only [Layout.blockOf, hdecode, hnote, Layout.block, if_true]
  have hlater : Layout.blockOf ⟨.plain, false, true⟩ (some .empty) = "[]\n" := rfl
  refine ⟨_, mayReport_run _ _ _ _, hblocks.trans ?_⟩
  show String.join [Layout.blockOf ⟨.plain, false, true⟩ (some ("[\"m\",null,\"note\"]".toUTF8 ++ .empty)), "",
    Layout.blockOf ⟨.plain, false, true⟩ (some .empty)] = _
  rw [String.join_cons, String.join_cons, String.join_cons, hfirst, hlater]
  rfl

end Pinpoint
