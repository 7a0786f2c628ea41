import Pinpoint.Proofs.Input.Origins
import Pinpoint.Proofs.Message.Depth
import Pinpoint.Proofs.Problem.Lines

/-!
# Trees that are read back

The trees of messages say all about them. `Node.ofJson?` and its like read the parts of a message back from the JSON
that is written for them, and what is read is what was written (`Node.ofJson?_toJson`, `Headed.ofJson?_toJson`). The
text is short of nothing either, as long as the reader has room for its containers. It always has for messages that come
from a text, which was read itself. The main result is `trees_lossless`.
-/

namespace Pinpoint

open Json

/-! ## Reading back -/

namespace Json.Value

/-- What is read in the value, or nothing if it is null. -/
def optional? {α : Type} (read : Value → Option α) (v : Value) : Option (Option α) :=
  if v.isNull then some none else (read v).map some

/-- What is read in the items of a list, in their order. -/
def list? {α : Type} (read : Value → Option α) : Value → Option (List α)
  | .list vs => vs.mapM read
  | _ => none

end Json.Value

def SourceRange.ofJson? : Value → Option SourceRange
  | .object [("end_column", .number (.natural stopColumn)), ("end_line", .number (.natural stopLine)),
      ("start_column", .number (.natural startColumn)), ("start_line", .number (.natural startLine))] =>
    some ⟨⟨startLine, startColumn⟩, ⟨stopLine, stopColumn⟩⟩
  | _ => none

def Problem.ofJson? : Value → Option Problem
  | .object [("path", .text path), ("range", range), ("severity", .text severity), ("text", .text text)] => do
    let range ← SourceRange.ofJson? range
    let severity ← Severity.ofName? severity
    return ⟨path, range, severity, text⟩
  | _ => none

def Site.ofJson? : Value → Option Site
  | .object [("label", label), ("path", .text path), ("range", range), ("severity", .text severity)] => do
    let label ← label.optional? Value.text?
    let range ← SourceRange.ofJson? range
    let severity ← Severity.ofName? severity
    return ⟨path, range, severity, label⟩
  | _ => none

def Node.ofJson? : Value → Option Node
  | .object [("def_site_msg", invocation), ("expansion_msg", definition), ("is_primary", .bool isPrimary),
      ("source_info", site)] => do
    let invocation ← (if invocation.isNull then some none else (ofJson? invocation).map some)
    let definition ← (if definition.isNull then some none else (ofJson? definition).map some)
    let site ← Site.ofJson? site
    return ⟨site, isPrimary, invocation, definition⟩
  | _ => none

def Headed.ofJson? : Value → Option Headed
  | .object [("code", code), ("notes", notes), ("source_info", heading), ("spans", spans)] => do
    let code ← code.optional? Value.text?
    let notes ← notes.optional? (Value.list? Value.text?)
    let heading ← Problem.ofJson? heading
    let spans ← spans.list? Node.ofJson?
    return ⟨heading.path, heading.range, ⟨heading.text, heading.severity, code, notes, spans⟩⟩
  | _ => none

/-! ## Parts -/

/-- Items are read back one by one. -/
theorem mapM_map {α β : Type} (read : β → Option α) (write : α → β) {as : List α}
    (h : ∀ a ∈ as, read (write a) = some a) : (as.map write).mapM read = some as := by
  induction as with
  | nil => rfl
  | cons a as ih =>
    rw [List.map_cons, List.mapM_cons, h a List.mem_cons_self,
      ih fun a' ha' => h a' (List.mem_cons_of_mem a ha')]
    rfl

section Parts

variable {α : Type} (read : Value → Option α) (write : α → Value)

/-- Nothing is told from something that is empty. -/
theorem optional?_optionalJson (h : ∀ a, read (write a) = some a) (hnull : ∀ a, (write a).isNull = false)
    (a? : Option α) : (optionalJson write a?).optional? read = some a? := by
  cases a? with
  | none => rfl
  | some a =>
    show (if (write a).isNull then some none else (read (write a)).map some) = some (some a)
    rw [hnull, h]
    rfl

theorem list?_map {as : List α} (h : ∀ a ∈ as, read (write a) = some a) :
    (Value.list (as.map write)).list? read = some as := mapM_map read write h

/-- What an optional part is read as. -/
theorem value_optionalJson (a? : Option α) :
    (optionalJson write a?).tree.value = optionalJson (fun a => (write a).tree.value) a? := by
  cases a? <;> rfl

/-- What a list of parts is read as. -/
theorem value_list (as : List α) :
    (Value.list (as.map write)).tree.value = .list (as.map fun a => (write a).tree.value) := by
  rw [Value.tree, Tree.value, Value.trees_eq, Tree.values_eq, List.map_map, List.map_map]
  rfl

end Parts

theorem SourceRange.ofJson?_toJson (r : SourceRange) : ofJson? r.toJson.tree.value = some r := rfl

theorem Problem.ofJson?_toJson (p : Problem) : ofJson? p.toJson.tree.value = some p := by
  obtain ⟨path, range, severity, text⟩ := p
  have hvalue : (toJson ⟨path, range, severity, text⟩).tree.value = .object [("path", .text path),
    ("range", range.toJson.tree.value), ("severity", .text severity.name), ("text", .text text)] := rfl
  rw [hvalue, ofJson?, range.ofJson?_toJson, Severity.ofName?_name]
  rfl

theorem Site.ofJson?_toJson (s : Site) : ofJson? s.toJson.tree.value = some s := by
  obtain ⟨path, range, severity, label⟩ := s
  have hvalue : (toJson ⟨path, range, severity, label⟩).tree.value = .object [("label",
    (optionalJson .text label).tree.value), ("path", .text path), ("range", range.toJson.tree.value),
    ("severity", .text severity.name)] := rfl
  have hlabel : (optionalJson .text label).tree.value.optional? Value.text? = some label := by
    rw [value_optionalJson]
    exact optional?_optionalJson Value.text? .text (fun _ => rfl) (fun _ => rfl) label
  rw [hvalue, ofJson?, hlabel, range.ofJson?_toJson, Severity.ofName?_name]
  rfl

namespace Node

theorem toJson_eq (n : Node) : n.toJson = .object [("source_info", n.site.toJson), ("is_primary", .bool n.isPrimary),
    ("def_site_msg", optionalJson toJson n.invocation), ("expansion_msg", optionalJson toJson n.definition)] := by
  obtain ⟨site, isPrimary, invocation, definition⟩ := n
  cases invocation <;> cases definition <;> rfl

theorem ofJson?_object (invocation definition site : Value) (isPrimary : Bool) :
    ofJson? (.object [("def_site_msg", invocation), ("expansion_msg", definition), ("is_primary", .bool isPrimary),
      ("source_info", site)]) =
        (do
          let invocation ← invocation.optional? ofJson?
          let definition ← definition.optional? ofJson?
          let site ← Site.ofJson? site
          return ⟨site, isPrimary, invocation, definition⟩) := by
  rw [ofJson?]
  rfl

/-- The members of a node in the order of their keys. -/
theorem value_toJson (n : Node) : n.toJson.tree.value = .object [
    ("def_site_msg", optionalJson (fun k => (toJson k).tree.value) n.invocation),
    ("expansion_msg", optionalJson (fun k => (toJson k).tree.value) n.definition),
    ("is_primary", .bool n.isPrimary), ("source_info", n.site.toJson.tree.value)] := by
  rw [toJson_eq, ← value_optionalJson, ← value_optionalJson]
  rfl

/-- **A tree is read back with both of its branches**, each in its place. -/
theorem ofJson?_toJson (n : Node) : ofJson? n.toJson.tree.value = some n := by
  induction n using linked_induction with
  | _ n ih =>
    have hlink : ∀ l, (optionalJson (fun k => (toJson k).tree.value) (n.linked? l)).optional? ofJson? =
        some (n.linked? l) := by
      intro l
      cases hl : n.linked? l with
      | none => rfl
      | some m =>
        have hnull : m.toJson.tree.value.isNull = false := by rw [value_toJson]; rfl
        show (if m.toJson.tree.value.isNull then some none else (ofJson? m.toJson.tree.value).map some) = some (some m)
        rw [hnull, ih l m hl]
        rfl
    have hinvocation := hlink .invocation
    have hdefinition := hlink .definition
    simp only [linked?] at hinvocation hdefinition
    rw [value_toJson, ofJson?_object, hinvocation, hdefinition, n.site.ofJson?_toJson]
    cases n
    rfl

/-- A node takes three containers: its own, that of its site and that of the range. Each link takes one more. -/
theorem within_toJson {n : Node} {d : Nat} (h : n.depth + 3 ≤ d) : n.toJson.Within Number.IsNatural d := by
  induction n using linked_induction generalizing d with
  | _ n ih =>
    obtain ⟨d, rfl⟩ : ∃ k, d = k + 3 := ⟨d - 3, by omega⟩
    have hlink : ∀ l, (optionalJson toJson (n.linked? l)).Within Number.IsNatural (d + 2) := by
      intro l
      cases hl : n.linked? l with
      | none => exact .null
      | some m =>
        have hlt := depth_lt_of_linked hl
        exact ih l m hl (by omega)
    have hsite : n.site.toJson.Within Number.IsNatural (d + 2) := by
      refine .object fun m hm => ?_
      simp only [List.mem_cons, List.not_mem_nil, or_false] at hm
      rcases hm with rfl | rfl | rfl | rfl
      · exact .text
      · exact n.site.range.within_toJson d
      · exact .text
      · cases n.site.label with
        | none => exact .null
        | some label => exact .text
    rw [toJson_eq]
    refine .object fun m hm => ?_
    simp only [List.mem_cons, List.not_mem_nil, or_false] at hm
    rcases hm with rfl | rfl | rfl | rfl
    · exact hsite
    · exact .bool
    · exact hlink .invocation
    · exact hlink .definition

end Node

namespace Headed

theorem value_toJson (h : Headed) : h.toJson.tree.value = .object [("code", optionalJson .text h.message.code),
    ("notes", optionalJson (fun notes => .list (notes.map .text)) h.message.notes),
    ("source_info", h.heading.toJson.tree.value),
    ("spans", .list (h.message.spans.map fun n => n.toJson.tree.value))] := by
  have hcode : (optionalJson Value.text h.message.code).tree.value = optionalJson .text h.message.code :=
    value_optionalJson _ _
  have hnotes : (optionalJson (fun notes => Value.list (notes.map .text)) h.message.notes).tree.value =
      optionalJson (fun notes => .list (notes.map .text)) h.message.notes := by
    rw [value_optionalJson]
    refine congrArg (fun write => optionalJson write h.message.notes) (funext fun notes => ?_)
    exact value_list _ _
  rw [← hcode, ← hnotes, ← value_list]
  rfl

/-- **A message is read back with all of its parts.** -/
theorem ofJson?_toJson (h : Headed) : ofJson? h.toJson.tree.value = some h := by
  obtain ⟨path, range, ⟨text, severity, code, notes, spans⟩⟩ := h
  have hcode : (optionalJson Value.text code).optional? Value.text? = some code :=
    optional?_optionalJson Value.text? .text (fun _ => rfl) (fun _ => rfl) code
  have hnotes : (optionalJson (fun notes : List String => Value.list (notes.map .text)) notes).optional?
      (Value.list? Value.text?) = some notes :=
    optional?_optionalJson _ _ (fun notes => list?_map Value.text? .text fun _ _ => rfl) (fun _ => rfl) notes
  have hspans : (Value.list (spans.map fun n => n.toJson.tree.value)).list? Node.ofJson? = some spans :=
    list?_map _ _ fun n _ => n.ofJson?_toJson
  rw [value_toJson, ofJson?, hcode, hnotes, Problem.ofJson?_toJson, hspans]
  rfl

/-- A message takes two containers more than its spans, its own and that of their list. -/
theorem within_toJson {h : Headed} {d : Nat} (hspans : ∀ n ∈ h.message.spans, n.depth + 2 ≤ d) :
    h.toJson.Within Number.IsNatural (d + 3) := by
  have htexts : ∀ texts : List String, (Value.list (texts.map .text)).Within Number.IsNatural (d + 2) := by
    intro texts
    refine .list fun v hv => ?_
    obtain ⟨text, -, rfl⟩ := List.mem_map.mp hv
    exact .text
  refine .object fun m hm => ?_
  simp only [List.mem_cons, List.not_mem_nil, or_false] at hm
  rcases hm with rfl | rfl | rfl | rfl
  · exact h.heading.within_toJson d
  · cases h.message.code with
    | none => exact .null
    | some code => exact .text
  · cases h.message.notes with
    | none => exact .null
    | some notes => exact htexts notes
  · refine .list fun v hv => ?_
    obtain ⟨n, hn, rfl⟩ := List.mem_map.mp hv
    have hdepth := hspans n hn
    exact Node.within_toJson (by omega)

end Headed

/-! ## Lists of messages -/

namespace Headed

/-- All spans are at most so many links deep. -/
def Bounded (depth : Nat) (hs : List Headed) : Prop := ∀ h ∈ hs, ∀ n ∈ h.message.spans, n.depth ≤ depth

/-- What a list of messages is read as. -/
def array (hs : List Headed) : List Value := hs.map fun h => h.toJson.tree.value

theorem mapM_array (hs : List Headed) : (array hs).mapM ofJson? = some hs :=
  mapM_map ofJson? _ fun h _ => h.ofJson?_toJson

variable {hs hs' : List Headed} {depth : Nat}

/-- The trees of messages are read if there is room for them and for the containers around them: the list, the message,
its spans, and the three of a node. -/
theorem spells_pretty (h : Bounded depth hs) (hdepth : depth + 6 ≤ maxNesting) :
    Spells maxNesting (Value.list (hs.map toJson)).pretty.toList (.list (array hs)) := by
  have hwithin : (Value.list (hs.map toJson)).Within Number.IsNatural maxNesting := by
    refine .list fun v hv => ?_
    obtain ⟨m, hm, rfl⟩ := List.mem_map.mp hv
    refine within_toJson fun n hn => ?_
    have hn := h m hm n hn
    unfold maxNesting at hdepth
    omega
  have hspells := (hwithin.writesPretty 0).spells
  rw [value_list] at hspells
  rw [Value.pretty, String.toList_ofList]
  exact hspells

/-- So they are read back from a text, with or without space after them. -/
theorem exists_values?_pretty (h : Bounded depth hs) (hdepth : depth + 6 ≤ maxNesting) {b : String}
    (hb : Blank b.toList) :
    ∃ vs, (Stream.ofText ((Value.list (hs.map toJson)).pretty ++ b)).values? = some [.list vs] ∧
      vs.mapM ofJson? = some hs := by
  refine ⟨array hs, Stream.values?_ofText_iff.mpr ?_, mapM_array hs⟩
  rw [String.toList_append]
  exact (SpellsStream.done hb).prepend (spells_pretty h hdepth) rfl

/-- Lists with the same text are the same. -/
theorem eq_of_pretty_eq (h : Bounded depth hs) (h' : Bounded depth hs') (hdepth : depth + 6 ≤ maxNesting)
    (heq : (Value.list (hs.map toJson)).pretty = (Value.list (hs'.map toJson)).pretty) : hs = hs' := by
  obtain ⟨vs, hvs, hread⟩ := exists_values?_pretty h hdepth (b := "") Blank.nil
  obtain ⟨vs', hvs', hread'⟩ := exists_values?_pretty h' hdepth (b := "") Blank.nil
  rw [heq, hvs'] at hvs
  cases hvs
  rw [hread'] at hread
  exact (Option.some.inj hread).symm

end Headed

/-! ## Runs -/

theorem treesJson_eq (ms : List Message) : treesJson ms = .list ((ms.map Message.headed).map Headed.toJson) := by
  rw [treesJson, List.map_map]
  rfl

theorem bounded_headed {depth : Nat} {ms : List Message} (h : ∀ m ∈ ms, ∀ n ∈ m.spans, n.depth ≤ depth) :
    Headed.Bounded depth (ms.map Message.headed) := by
  intro k hk
  obtain ⟨m, hm, rfl⟩ := List.mem_map.mp hk
  exact h m hm

/-- The messages of the inputs that have any, input by input. -/
def accepted (cs : List Collected) : List (List Message) := cs.filterMap fun c => c.messages.toOption

theorem accepted_cons_error {c : Collected} {e : InputError} (h : c.messages = .error e) (cs : List Collected) :
    accepted (c :: cs) = accepted cs := by
  rw [accepted, List.filterMap_cons, h]
  rfl

theorem accepted_cons_ok {c : Collected} {ms : List Message} (h : c.messages = .ok ms) (cs : List Collected) :
    accepted (c :: cs) = ms :: accepted cs := by
  rw [accepted, List.filterMap_cons, h]
  rfl

/-- Blocks of trees, one after another, are a stream of arrays. -/
theorem spellsStream_blocks {l : Layout} (hl : l.tree = true) {cs : List Collected} {depth : Nat}
    (h : ∀ c ∈ cs, ∀ ms, c.messages = .ok ms → ∀ m ∈ ms, ∀ n ∈ m.spans, n.depth ≤ depth)
    (hdepth : depth + 6 ≤ maxNesting) :
    SpellsStream (String.join (cs.map fun c => c.block l)).toList
      (((accepted cs).map fun ms => ms.map Message.headed).map fun hs => .list (Headed.array hs)) := by
  induction cs with
  | nil => exact .done Blank.nil
  | cons c cs ih =>
    have hrest := ih fun c' hc' => h c' (List.mem_cons_of_mem c hc')
    rw [List.map_cons, String.join_cons, String.toList_append]
    cases hc : c.messages with
    | error e =>
      have hblock : c.block l = "" := by rw [Collected.block, hc]
      rw [accepted_cons_error hc, hblock]
      exact hrest
    | ok ms =>
      have hblock : c.block l = (treesJson ms).pretty ++ "\n" := by
        simp only [Collected.block, hc, Layout.block, hl, if_true]
      have hbounded := bounded_headed (h c List.mem_cons_self ms hc)
      have hblank : Blank "\n".toList := blank_cons.mpr ⟨rfl, .nil⟩
      rw [accepted_cons_ok hc, hblock, String.toList_append, List.append_assoc, treesJson_eq]
      exact (hrest.space hblank).prepend (Headed.spells_pretty hbounded hdepth) rfl

/-- Messages that come from inputs are not too deep to be read back. -/
theorem depth_of_collectPooled {s : Surroundings} {jobs : UInt64} {names : List String} {moves : List Pool.Move} :
    ∀ c ∈ (s.collectPooled jobs names moves).result, ∀ ms, c.messages = .ok ms →
      ∀ m ∈ ms, ∀ n ∈ m.spans, n.depth ≤ 62 := by
  intro c hc ms hms
  obtain ⟨i, hi⟩ := List.mem_iff_getElem?.mp hc
  obtain ⟨name, -, horigin⟩ := s.origin_collectPooled jobs names moves hi
  obtain ⟨_, _, text, -, -, -, htext⟩ := horigin.text hms
  exact Message.depth_of_ofText htext

/-- **Trees lose nothing.** The text of a list of messages whose spans are at most 100 links deep is one array, and all
messages are read back from it: what is absent as absent, and what is empty as empty. So different lists have different
texts. That is what a layout with trees puts out for the messages of an input. No accepted text has deeper spans, and so
the output of every run in such a layout is an array for each input that has messages, in the order of the inputs, from
which these messages are read back. -/
theorem trees_lossless :
    (∀ hs : List Headed, (∀ h ∈ hs, ∀ n ∈ h.message.spans, n.depth ≤ 100) →
      ∃ vs, (Stream.ofText (Value.list (hs.map Headed.toJson)).pretty).values? = some [.list vs] ∧
        vs.mapM Headed.ofJson? = some hs) ∧
    (∀ hs hs' : List Headed, (∀ h ∈ hs, ∀ n ∈ h.message.spans, n.depth ≤ 100) →
      (∀ h ∈ hs', ∀ n ∈ h.message.spans, n.depth ≤ 100) →
        (Value.list (hs.map Headed.toJson)).pretty = (Value.list (hs'.map Headed.toJson)).pretty → hs = hs') ∧
    (∀ (l : Layout) (ms : List Message), l.tree = true → (∀ m ∈ ms, ∀ n ∈ m.spans, n.depth ≤ 100) →
      ∃ vs, (Stream.ofText (l.block ms)).values? = some [.list vs] ∧
        vs.mapM Headed.ofJson? = some (ms.map Message.headed)) ∧
    (∀ (s : String) (ms : List Message), (Message.ofText s).result = .ok ms → ∀ m ∈ ms, ∀ n ∈ m.spans,
      n.depth ≤ 100) ∧
    ∀ (o : Options) (s : Surroundings) (onTerminal : Bool) (moves : List Pool.Move) (f : LogFilter), o.tree = true →
      ∃ vs, (Stream.ofText ((runBy o s onTerminal moves).filtered f).output).values? = some vs ∧
        vs.mapM (Value.list? Headed.ofJson?) =
          some ((accepted (s.collectPooled o.jobs o.inputNames moves).result).map fun ms => ms.map Message.headed) := by
  have hroom : 100 + 6 ≤ maxNesting := by decide
  refine ⟨fun hs h => ?_, fun hs hs' h h' => ?_, fun l ms hl h => ?_, fun s ms hms m hm n hn => ?_,
    fun o s onTerminal moves f hl => ?_⟩
  · obtain ⟨vs, hvs, hread⟩ := Headed.exists_values?_pretty h hroom (b := "") Blank.nil
    rw [String.append_empty] at hvs
    exact ⟨vs, hvs, hread⟩
  · exact Headed.eq_of_pretty_eq h h' hroom
  · have hblank : Blank "\n".toList := blank_cons.mpr ⟨rfl, .nil⟩
    rw [Layout.block, if_pos hl, treesJson_eq]
    exact Headed.exists_values?_pretty (bounded_headed h) hroom hblank
  · exact Nat.le_trans (Message.depth_of_ofText hms m hm n hn) (by decide)
  · rw [Report.output_filtered, runBy, output_report]
    refine ⟨_, Stream.values?_ofText_iff.mpr (spellsStream_blocks hl depth_of_collectPooled (by decide)), ?_⟩
    exact mapM_map (Value.list? Headed.ofJson?) _ fun hs _ => Headed.mapM_array hs

/-- A span whose macro was only invoked, with an empty code, and one whose macro was only defined, with no code: the
texts differ, and each is read back, the second from the block of an input. A diagnostic with a macro is not too deep,
and a run that ends before it has read its input puts out no array. -/
theorem trees_lossless_branches : ∃ (m m' : Message) (ms : List Message),
    m.spans.map Node.depth = [1] ∧ m'.spans.map Node.depth = [1] ∧ m.code = some "" ∧ m'.code = none ∧
    (Value.list [Headed.toJson ⟨"a.rs", .placeholder, m⟩]).pretty ≠
      (Value.list [Headed.toJson ⟨"a.rs", .placeholder, m'⟩]).pretty ∧
    (∃ vs, (Stream.ofText (Value.list [Headed.toJson ⟨"a.rs", .placeholder, m⟩]).pretty).values? = some [.list vs] ∧
      vs.mapM Headed.ofJson? = some [⟨"a.rs", .placeholder, m⟩]) ∧
    (∃ vs, (Stream.ofText (Layout.block ⟨.plain, false, true⟩ [m'])).values? = some [.list vs] ∧
      vs.mapM Headed.ofJson? = some [m'.headed]) ∧
    (Message.ofText "[\"m\",null,\"help\",[[null,1,2,3,4,null,null,[[null,9,9,1,2]]]]]").result = .ok ms ∧
    (∀ m ∈ ms, ∀ n ∈ m.spans, n.depth ≤ 100) ∧
    ∃ vs,
      (Stream.ofText ((runBy { tree := true } (.withoutFiles []) false []).filtered ⟨[]⟩).output).values? = some vs ∧
      vs.mapM (Value.list? Headed.ofJson?) = some [] := by
  let site : Site := ⟨"b.rs", .placeholder, .error, some ""⟩
  let m : Message := ⟨"boom", .error, some "", some [], [⟨site, true, some (.leaf site), none⟩]⟩
  let m' : Message := ⟨"boom", .error, none, some [], [⟨site, true, none, some (.leaf site)⟩]⟩
  obtain ⟨hread, hinjective, hblock, htext, hrun⟩ := trees_lossless
  have hm : ∀ h ∈ [(⟨"a.rs", .placeholder, m⟩ : Headed)], ∀ n ∈ h.message.spans, n.depth ≤ 100 := by decide
  have hm' : ∀ h ∈ [(⟨"a.rs", .placeholder, m'⟩ : Headed)], ∀ n ∈ h.message.spans, n.depth ≤ 100 := by decide
  have hdiffer : (Value.list [Headed.toJson ⟨"a.rs", .placeholder, m⟩]).pretty ≠
      (Value.list [Headed.toJson ⟨"a.rs", .placeholder, m'⟩]).pretty := by
    intro heq
    have hcodes := congrArg (List.map fun h => h.message.code) (hinjective _ _ hm hm' heq)
    exact absurd hcodes (by decide)
  have hvalues : (Stream.ofText "[\"m\",null,\"help\",[[null,1,2,3,4,null,null,[[null,9,9,1,2]]]]]").values? =
      some [.list [.text "m", .null, .text "help", .list [.list [.null, .number (.natural 1), .number (.natural 2),
        .number (.natural 3), .number (.natural 4), .null, .null, .list [.list [.null, .number (.natural 9),
          .number (.natural 9), .number (.natural 1), .number (.natural 2)]]]]]] :=
    rfl
  have haccepted := Message.ofText_eq_ok_iff.mpr ⟨_, hvalues, .cons (x := some _) rfl .nil⟩
  have hfirst := hread _ hm
  have hsecond := hblock ⟨.plain, false, true⟩ [m'] rfl (by decide)
  have hdepth := htext _ _ haccepted
  have hnothing := hrun { tree := true } (.withoutFiles []) false [] ⟨[]⟩ rfl
  refine ⟨m, m', _, rfl, rfl, rfl, rfl, hdiffer, hfirst, hsecond, haccepted, ?_, ?_⟩
  · exact hdepth
  · exact hnothing

end Pinpoint
