import Pinpoint.Options.Arguments
import Pinpoint.Proofs.Decimal.Words

/-!
# Command lines

A command line is made of pieces, the inputs and the options, each in one of its spellings (`Spelled`). Pieces that name
each option at most once, and leave out only what has its default, say what options they stand for (`Tell`), wherever
the options stand among the inputs. Reading the arguments gives these options: what has been judged and what is pending
are together what the pieces so far have said (`State.Holds`), and one more piece keeps that (`Piece.Spelled.read`).
-/

namespace Pinpoint.Arguments

/-! ## Spellings -/

/-- The parts of a command line. -/
inductive Piece where
  | input (name : String)
  | format (f : Format)
  | coloring (c : Coloring)
  | jobs (n : UInt64)
  | skipInvalid
  | tree
  | verbose
  deriving DecidableEq

/-- The long name of a setting. -/
def Setting.name : Setting → String
  | .format => "format"
  | .coloring => "color"
  | .jobs => "jobs"

/-- The short name of a setting. -/
def Setting.letter? : Setting → Option Char
  | .format => some 'f'
  | .coloring => none
  | .jobs => some 'j'

/-- A setting with the word of its value, in two arguments or in one. -/
inductive Setting.Spelled (key : Setting) (word : String) : List String → Prop
  | long : Spelled key word ["--" ++ key.name, word]
  | joined : Spelled key word ["--" ++ key.name ++ "=" ++ word]
  | short {c : Char} : key.letter? = some c → Spelled key word [String.ofList ['-', c], word]
  | glued {c : Char} : key.letter? = some c → Spelled key word [String.ofList ('-' :: c :: word.toList)]

/-- The long name of a flag. -/
def Flag.name : Flag → String
  | .skipInvalid => "skip-invalid"
  | .tree => "tree"
  | .verbose => "verbose"
  | .help => "help"
  | .version => "version"

/-- The short name of a flag. -/
def Flag.letter? : Flag → Option Char
  | .skipInvalid | .tree => none
  | .verbose => some 'v'
  | .help => some 'h'
  | .version => some 'V'

/-- A flag by one of its names. -/
inductive Flag.Spelled (f : Flag) : String → Prop
  | long : Spelled f ("--" ++ f.name)
  | short {c : Char} : f.letter? = some c → Spelled f (String.ofList ['-', c])

/-- The piece gives the setting the value of the word. -/
inductive Piece.Sets : Piece → Setting → String → Prop
  | format (f : Format) : Sets (.format f) .format f.name
  | coloring (c : Coloring) : Sets (.coloring c) .coloring c.name
  | jobs {n : UInt64} {word : String} : Decimal.IsWord n word → Sets (.jobs n) .jobs word

/-- The piece is the flag. -/
inductive Piece.Raises : Piece → Flag → Prop
  | skipInvalid : Raises .skipInvalid .skipInvalid
  | tree : Raises .tree .tree
  | verbose : Raises .verbose .verbose

/-- The arguments are the piece. An input is not empty, and it does not begin with a dash unless it is one. -/
inductive Piece.Spelled : Piece → List String → Prop
  | input {name : String} : name ≠ "" → name = "-" ∨ name.toList.head? ≠ some '-' → Spelled (.input name) [name]
  | setting {p : Piece} {key : Setting} {word : String} {args : List String} : p.Sets key word →
      key.Spelled word args → Spelled p args
  | flag {p : Piece} {f : Flag} {arg : String} : p.Raises f → f.Spelled arg → Spelled p [arg]

/-- The arguments are the pieces, one after another. After two dashes there are inputs alone, which may be any texts but
the empty one. -/
inductive Spelled : List Piece → List String → Prop
  | nil : Spelled [] []
  | cons {p : Piece} {ps : List Piece} {ws args : List String} : p.Spelled ws → Spelled ps args →
      Spelled (p :: ps) (ws ++ args)
  | dashes {names : List String} : (∀ name ∈ names, name ≠ "") → Spelled (names.map .input) ("--" :: names)

/-! ## What pieces say -/

namespace Piece

@[simp]
def input? : Piece → Option String
  | .input name => some name
  | _ => none

@[simp]
def format? : Piece → Option Format
  | .format f => some f
  | _ => none

@[simp]
def coloring? : Piece → Option Coloring
  | .coloring c => some c
  | _ => none

@[simp]
def jobs? : Piece → Option UInt64
  | .jobs n => some n
  | _ => none

end Piece

/-- The value is given once, or not at all if it is the default. -/
def TellsOnce {α : Type} (given : List α) (value default : α) : Prop := given = [value] ∨ given = [] ∧ value = default

/-- The pieces stand for the options: they give the inputs in order and each option at most once, and what they leave
out has its default. -/
structure Tell (ps : List Piece) (o : Options) : Prop where
  inputs : ps.filterMap Piece.input? = o.inputs
  format : TellsOnce (ps.filterMap Piece.format?) o.format .plain
  coloring : TellsOnce (ps.filterMap Piece.coloring?) o.coloring .auto
  jobs : TellsOnce (ps.filterMap Piece.jobs?) o.jobs 4
  skipInvalid : ps.count .skipInvalid = o.skipInvalid.toNat
  tree : ps.count .tree = o.tree.toNat
  verbose : ps.count .verbose = o.verbose.toNat

/-- No option is given twice. -/
structure AtMostOnce (ps : List Piece) : Prop where
  format : (ps.filterMap Piece.format?).length ≤ 1
  coloring : (ps.filterMap Piece.coloring?).length ≤ 1
  jobs : (ps.filterMap Piece.jobs?).length ≤ 1
  skipInvalid : ps.count .skipInvalid ≤ 1
  tree : ps.count .tree ≤ 1
  verbose : ps.count .verbose ≤ 1

/-- What has been judged is what the pieces say. -/
structure Given.Holds (g : Given) (ps : List Piece) : Prop where
  inputs : ps.filterMap Piece.input? = g.inputs
  format : ps.filterMap Piece.format? = g.format.toList
  coloring : ps.filterMap Piece.coloring? = g.coloring.toList
  jobs : ps.filterMap Piece.jobs? = g.jobs.toList
  skipInvalid : ps.count .skipInvalid = g.skipInvalid.toNat
  tree : ps.count .tree = g.tree.toNat
  verbose : ps.count .verbose = g.verbose.toNat

theorem TellsOnce.length_le {α : Type} {given : List α} {value default : α} (h : TellsOnce given value default) :
    given.length ≤ 1 := by
  rcases h with rfl | ⟨rfl, -⟩ <;> simp

theorem TellsOnce.getD_eq {α : Type} {given? : Option α} {value default : α}
    (h : TellsOnce given?.toList value default) : given?.getD default = value := by
  cases given? <;> simp_all [TellsOnce]

theorem Tell.atMostOnce {ps : List Piece} {o : Options} (h : Tell ps o) : AtMostOnce ps where
  format := h.format.length_le
  coloring := h.coloring.length_le
  jobs := h.jobs.length_le
  skipInvalid := by
    rw [h.skipInvalid]
    exact Bool.toNat_le _
  tree := by
    rw [h.tree]
    exact Bool.toNat_le _
  verbose := by
    rw [h.verbose]
    exact Bool.toNat_le _

/-- Fewer pieces give no option more often. -/
theorem AtMostOnce.sublist {ps qs : List Piece} (h : AtMostOnce qs) (hsub : ps.Sublist qs) : AtMostOnce ps where
  format := Nat.le_trans (hsub.filterMap _).length_le h.format
  coloring := Nat.le_trans (hsub.filterMap _).length_le h.coloring
  jobs := Nat.le_trans (hsub.filterMap _).length_le h.jobs
  skipInvalid := Nat.le_trans (hsub.count_le _) h.skipInvalid
  tree := Nat.le_trans (hsub.count_le _) h.tree
  verbose := Nat.le_trans (hsub.count_le _) h.verbose

/-- **The options are those that the pieces stand for.** -/
theorem Given.Holds.options {g : Given} {ps : List Piece} {o : Options} (h : g.Holds ps) (ho : Tell ps o) :
    g.options = o := by
  have hformat := ho.format
  have hcoloring := ho.coloring
  have hjobs := ho.jobs
  rw [h.format] at hformat
  rw [h.coloring] at hcoloring
  rw [h.jobs] at hjobs
  have hflag : ∀ {a b : Bool}, a.toNat = b.toNat → a = b := by
    intro a b hab
    cases a <;> cases b <;> simp_all
  obtain ⟨inputs, format, coloring, jobs, skipInvalid, tree, verbose⟩ := o
  simp only [Given.options, Options.mk.injEq]
  exact ⟨h.inputs.symm.trans ho.inputs, hformat.getD_eq, hcoloring.getD_eq, hjobs.getD_eq,
    hflag (h.skipInvalid.symm.trans ho.skipInvalid), hflag (h.tree.symm.trans ho.tree),
    hflag (h.verbose.symm.trans ho.verbose)⟩

/-! ## Judging one more piece -/

namespace Given

/-- What has been judged with one more piece. -/
def withPiece (g : Given) : Piece → Given
  | .input name => { g with inputs := g.inputs ++ [name] }
  | .format f => { g with format := some f }
  | .coloring c => { g with coloring := some c }
  | .jobs n => { g with jobs := some n }
  | .skipInvalid => { g with skipInvalid := true }
  | .tree => { g with tree := true }
  | .verbose => { g with verbose := true }

/-- The option of the piece has not been given before. -/
def IsNew (g : Given) : Piece → Prop
  | .input _ => True
  | .format _ => g.format = none
  | .coloring _ => g.coloring = none
  | .jobs _ => g.jobs = none
  | .skipInvalid => g.skipInvalid = false
  | .tree => g.tree = false
  | .verbose => g.verbose = false

variable {g : Given} {ps : List Piece} {p : Piece}

/-- What pieces give once, those before it have not given. -/
theorem Holds.isNew (h : g.Holds ps) (honce : AtMostOnce (ps ++ [p])) : g.IsNew p := by
  cases p with
  | input name => trivial
  | format f =>
    have hlength := honce.format
    simpa [IsNew, h.format] using hlength
  | coloring c =>
    have hlength := honce.coloring
    simpa [IsNew, h.coloring] using hlength
  | jobs n =>
    have hlength := honce.jobs
    simpa [IsNew, h.jobs] using hlength
  | skipInvalid =>
    have hcount := honce.skipInvalid
    simpa [IsNew, h.skipInvalid] using hcount
  | tree =>
    have hcount := honce.tree
    simpa [IsNew, h.tree] using hcount
  | verbose =>
    have hcount := honce.verbose
    simpa [IsNew, h.verbose] using hcount

/-- What has been judged goes on being what the pieces say. -/
theorem Holds.withPiece (h : g.Holds ps) (hnew : g.IsNew p) : (g.withPiece p).Holds (ps ++ [p]) := by
  obtain ⟨hinputs, hformat, hcoloring, hjobs, hskip, htree, hverbose⟩ := h
  cases p <;> simp only [IsNew] at hnew <;> constructor <;>
    simp [Given.withPiece, hinputs, hformat, hcoloring, hjobs, hskip, htree, hverbose, hnew]

/-- A new setting takes the value of its word. -/
theorem set_eq {key : Setting} {word : String} (hnew : g.IsNew p) (hp : p.Sets key word) :
    g.set key word = .ok (g.withPiece p) := by
  cases hp with
  | format f =>
    have hword : format? f.name = some f := by cases f <;> rfl
    simp only [IsNew] at hnew
    simp [set, hnew, hword, withPiece]
  | coloring c =>
    have hword : coloring? c.name = some c := by cases c <;> rfl
    simp only [IsNew] at hnew
    simp [set, hnew, hword, withPiece]
  | @jobs n word hn =>
    have hword := Decimal.word?_of_isWord hn
    simp only [IsNew] at hnew
    simp [set, hnew, hword, withPiece]

/-- A new flag is raised. -/
theorem raise_eq {f : Flag} (hnew : g.IsNew p) (hp : p.Raises f) : g.raise f = .ok (g.withPiece p) := by
  cases hp <;> exact if_neg (Bool.eq_false_iff.mp hnew)

end Given

/-! ## Reading one more piece -/

namespace State

variable {s : State} {g g' : Given} {key : Setting} {f : Flag} {word arg : String} {args : List String}

/-- What has been judged, once what is pending is judged too, is what the pieces say. -/
def Holds (s : State) (ps : List Piece) : Prop := ∃ g, s.settle = .ok g ∧ g.Holds ps

theorem read_long {body : List Char} (harg : arg.toList = '-' :: '-' :: body) (hbody : body ≠ []) :
    s.read (arg :: args) = s.long body >>= (read · args) := by
  obtain ⟨c, rest, rfl⟩ := List.exists_cons_of_ne_nil hbody
  rw [read, harg]
  rfl

theorem read_short {c : Char} {rest : List Char} (harg : arg.toList = '-' :: c :: rest) (hc : c ≠ '-') :
    s.read (arg :: args) = s.short (c :: rest) >>= (read · args) := by
  rw [read, harg]
  split
  · next h => cases h; exact absurd rfl hc
  · next h => cases h; exact absurd rfl hc
  · next h => cases h; rfl
  · next h => exact absurd rfl (h c rest)

/-- A dash alone is a word, and so is all that does not begin with one. -/
theorem read_word (harg : arg = "-" ∨ arg.toList.head? ≠ some '-') :
    s.read (arg :: args) = s.word arg >>= (read · args) := by
  rw [read]
  rcases harg with rfl | hhead
  · rfl
  · split
    · next h => exact absurd (by rw [h]; rfl) hhead
    · next h => exact absurd (by rw [h]; rfl) hhead
    · next h => exact absurd (by rw [h]; rfl) hhead
    · rfl

theorem setting_none (hs : s.settle = .ok g) : s.setting key none = .ok ⟨g, .setting key none⟩ := by
  rw [setting, hs]
  rfl

theorem setting_some (hs : s.settle = .ok g) (hset : g.set key word = .ok g') :
    s.setting key (some word) = .ok ⟨g', .nothing⟩ := by
  simp only [setting, hs, bind, Except.bind, hset]
  rfl

theorem flag_of_raise (hs : s.settle = .ok g) (hraise : g.raise f = .ok g') : s.flag f = .ok ⟨g', .nothing⟩ := by
  simp only [flag, hs, bind, Except.bind, hraise]
  rfl

theorem long_setting (key : Setting) : s.long key.name.toList = s.setting key none := by
  cases key <;> rfl

theorem long_joined (key : Setting) (word : String) :
    s.long (key.name.toList ++ '=' :: word.toList) = s.setting key (some word) := by
  have hword : String.ofList word.toList = word := String.ofList_toList
  cases key <;> exact congrArg (fun w => s.setting _ (some w)) hword

theorem long_flag (f : Flag) : s.long f.name.toList = s.flag f := by
  cases f <;> rfl

theorem short?_setting {c : Char} (h : key.letter? = some c) : short? c = some (.setting key) ∧ c ≠ '-' := by
  cases key <;> cases h <;> decide

theorem short?_flag {c : Char} (h : f.letter? = some c) : short? c = some (.flag f) ∧ c ≠ '-' := by
  cases f <;> cases h <;> decide

/-- A word that may be a value without being taken for an option. -/
def IsValue (word : String) : Prop := ∃ c rest, word.toList = c :: rest ∧ c ≠ '-' ∧ c ≠ '='

/-- A setting that waits for its value takes the next word for it. -/
theorem read_value (hword : IsValue word) :
    (State.mk g (.setting key none)).read (word :: args) = (State.mk g (.setting key (some word))).read args := by
  obtain ⟨c, rest, hword, hdash, -⟩ := hword
  rw [read_word]
  · rfl
  · rw [hword, List.head?_cons]
    exact .inr fun h => hdash (Option.some.inj h)

/-- **A setting is read in each of its spellings.** -/
theorem read_setting (hs : s.settle = .ok g) (hset : g.set key word = .ok g') (hword : IsValue word) {ws : List String}
    (h : key.Spelled word ws) : ∃ s' : State, s'.settle = .ok g' ∧ ∀ args, s.read (ws ++ args) = s'.read args := by
  have hname : key.name.toList ≠ [] := by cases key <;> decide
  cases h with
  | long =>
    refine ⟨⟨g, .setting key (some word)⟩, hset, fun args => ?_⟩
    rw [List.cons_append, List.singleton_append, read_long (String.toList_append ..) hname, long_setting,
      setting_none hs]
    exact read_value hword
  | joined =>
    refine ⟨⟨g', .nothing⟩, rfl, fun args => ?_⟩
    have harg : ("--" ++ key.name ++ "=" ++ word).toList = '-' :: '-' :: (key.name.toList ++ '=' :: word.toList) := by
      simp [String.toList_append]
    rw [List.singleton_append, read_long harg (by simp), long_joined, setting_some hs hset]
    rfl
  | @short c hc =>
    refine ⟨⟨g, .setting key (some word)⟩, hset, fun args => ?_⟩
    obtain ⟨hkey, hdash⟩ := short?_setting hc
    have hshort : s.short [c] = s.setting key none := by rw [State.short, hkey]
    rw [List.cons_append, List.singleton_append, read_short String.toList_ofList hdash, hshort, setting_none hs]
    exact read_value hword
  | @glued c hc =>
    refine ⟨⟨g', .nothing⟩, rfl, fun args => ?_⟩
    obtain ⟨hkey, hdash⟩ := short?_setting hc
    have hshort : s.short (c :: word.toList) = s.setting key (some word) := by
      obtain ⟨d, rest, hrest, -, hequals⟩ := hword
      have hofList : String.ofList (d :: rest) = word := by rw [← hrest, String.ofList_toList]
      simp only [State.short, hkey, hrest]
      split
      · next h => cases h
      · next h => cases h; exact absurd rfl hequals
      · rw [hofList]
    rw [List.singleton_append, read_short String.toList_ofList hdash, hshort, setting_some hs hset]
    rfl

/-- A flag is read by each of its names. -/
theorem read_flag (hs : s.settle = .ok g) (hraise : g.raise f = .ok g') (h : f.Spelled arg) :
    ∃ s' : State, s'.settle = .ok g' ∧ ∀ args, s.read ([arg] ++ args) = s'.read args := by
  refine ⟨⟨g', .nothing⟩, rfl, fun args => ?_⟩
  have hname : f.name.toList ≠ [] := by cases f <;> decide
  cases h with
  | long =>
    rw [List.singleton_append, read_long (String.toList_append ..) hname, long_flag, flag_of_raise hs hraise]
    rfl
  | @short c hc =>
    obtain ⟨hflag, hdash⟩ := short?_flag hc
    rw [List.singleton_append, read_short String.toList_ofList hdash, State.short, hflag]
    simp only
    rw [flag_of_raise hs hraise]
    rfl

/-- An input joins those before it, or what is pending before it is judged first. -/
theorem input_of_settle (hs : s.settle = .ok g) {name : String} (hname : name ≠ "") :
    ∃ s', s.input name = .ok s' ∧ s'.settle = .ok (g.withPiece (.input name)) := by
  have hone : g.addInputs [name] = .ok (g.withPiece (.input name)) := by
    simp [Given.addInputs, Given.withPiece, Ne.symm hname]
  obtain ⟨given, pending⟩ := s
  cases pending with
  | nothing =>
    cases hs
    exact ⟨_, rfl, hone⟩
  | setting key word? =>
    refine ⟨⟨g, .inputs [name]⟩, ?_, hone⟩
    simp only [input, hs, bind, Except.bind]
    rfl
  | inputs names =>
    refine ⟨_, rfl, ?_⟩
    simp only [settle, Given.addInputs, Given.withPiece, List.contains_append] at hs ⊢
    split at hs
    · cases hs
    · next hnames =>
      cases hs
      simpa [Ne.symm hname] using hnames

/-- A word is no value unless a setting waits for one. -/
theorem word_eq_input (hs : s.settle = .ok g) : s.word arg = s.input arg := by
  obtain ⟨given, pending⟩ := s
  cases pending with
  | setting key word? =>
    cases word? with
    | none => cases hs
    | some word => rfl
  | nothing | inputs _ => rfl

/-- An input is read if it does not begin with a dash, or is one. -/
theorem read_input (hs : s.settle = .ok g) {name : String} (hname : name ≠ "")
    (hdash : name = "-" ∨ name.toList.head? ≠ some '-') :
    ∃ s' : State, s'.settle = .ok (g.withPiece (.input name)) ∧ ∀ args, s.read ([name] ++ args) = s'.read args := by
  obtain ⟨s', hinput, hs'⟩ := input_of_settle hs hname
  refine ⟨s', hs', fun args => ?_⟩
  rw [List.singleton_append, read_word hdash, word_eq_input hs, hinput]
  rfl

end State

/-- The words of values are no options. -/
theorem Piece.Sets.isValue {p : Piece} {key : Setting} {word : String} (h : p.Sets key word) : State.IsValue word := by
  cases h with
  | format f => cases f <;> exact ⟨_, _, rfl, by decide, by decide⟩
  | coloring c => cases c <;> exact ⟨_, _, rfl, by decide, by decide⟩
  | jobs hn =>
    obtain ⟨c, rest, hword, hc⟩ := hn.first
    refine ⟨c, rest, hword, ?_, ?_⟩
    · rintro rfl
      simp at hc
    · rintro rfl
      simp at hc

/-- **One more piece is read.** -/
theorem Piece.Spelled.read {s : State} {ps : List Piece} (hs : s.Holds ps) {p : Piece} {ws : List String}
    (hp : p.Spelled ws) (honce : AtMostOnce (ps ++ [p])) :
    ∃ s' : State, s'.Holds (ps ++ [p]) ∧ ∀ args, s.read (ws ++ args) = s'.read args := by
  obtain ⟨g, hs, hg⟩ := hs
  have hnew := hg.isNew honce
  have hnext : ∃ s' : State, s'.settle = .ok (g.withPiece p) ∧ ∀ args, s.read (ws ++ args) = s'.read args := by
    cases hp with
    | input hname hdash => exact State.read_input hs hname hdash
    | setting hsets hspelled => exact State.read_setting hs (Given.set_eq hnew hsets) hsets.isValue hspelled
    | flag hraises hspelled => exact State.read_flag hs (Given.raise_eq hnew hraises) hspelled
  obtain ⟨s', hs', hread⟩ := hnext
  exact ⟨s', ⟨_, hs', hg.withPiece hnew⟩, hread⟩

/-! ## Reading all pieces -/

/-- Any texts but the empty one are inputs where nothing else is. -/
theorem State.Holds.inputs {s : State} {ps : List Piece} (hs : s.Holds ps) {names : List String}
    (hnames : ∀ name ∈ names, name ≠ "") :
    ∃ s', names.foldlM State.input s = .ok s' ∧ s'.Holds (ps ++ names.map .input) := by
  induction names generalizing s ps with
  | nil => exact ⟨s, rfl, by simpa using hs⟩
  | cons name names ih =>
    obtain ⟨hname, hrest⟩ := List.forall_mem_cons.mp hnames
    obtain ⟨g, hsettle, hg⟩ := hs
    obtain ⟨s₁, hinput, hs₁⟩ := State.input_of_settle hsettle hname
    obtain ⟨s', hfold, hs'⟩ := ih ⟨_, hs₁, hg.withPiece trivial⟩ hrest
    refine ⟨s', ?_, by simpa using hs'⟩
    rw [List.foldlM_cons, hinput]
    exact hfold

/-- **All pieces are read, one after another.** -/
theorem Spelled.read {s : State} {done ps : List Piece} {args : List String} (hs : s.Holds done)
    (h : Spelled ps args) (honce : AtMostOnce (done ++ ps)) :
    ∃ s', s.read args = .ok s' ∧ s'.Holds (done ++ ps) := by
  induction h generalizing s done with
  | nil => exact ⟨s, rfl, by simpa using hs⟩
  | @cons p ps ws args hp _ ih =>
    have hfirst : (done ++ [p]).Sublist (done ++ p :: ps) := by simp
    obtain ⟨s₁, hs₁, hread⟩ := hp.read hs (honce.sublist hfirst)
    rw [List.append_cons] at honce ⊢
    obtain ⟨s', hrest, hs'⟩ := ih hs₁ honce
    exact ⟨s', (hread args).trans hrest, hs'⟩
  | dashes hnames => exact hs.inputs hnames

/-- **Command lines say what they are read as.** Let the arguments be pieces that stand for the options, each in one of
its spellings: the inputs in their order, and among them, before or after them every option at most once, left out only
if it has its default; after two dashes inputs may begin with dashes too. Then the arguments are read as these options,
and the inputs to read are those that are listed, or the standard input if there are none. -/
theorem parse_of_spelled {ps : List Piece} {args : List String} {o : Options} (h : Spelled ps args) (ho : Tell ps o) :
    parse args = .ok o ∧ o.inputNames = if o.inputs = [] then ["-"] else o.inputs := by
  have hstart : State.Holds {} [] := ⟨{}, rfl, by constructor <;> rfl⟩
  obtain ⟨s, hread, g, hsettle, hg⟩ := h.read hstart ho.atMostOnce
  constructor
  · rw [parse, hread]
    show (do return (← s.settle).options) = _
    rw [hsettle]
    exact congrArg Except.ok (hg.options ho)
  · simp [Options.inputNames, standardInput]

/-- Options of all kinds before, between and after inputs, one of which is a dash and one of which looks like an option;
and only the largest number of jobs. -/
theorem parse_of_spelled_dashes :
    (parse ["a", "-fjson", "-", "--jobs", "+007", "-v", "--color=never", "--", "--tree"] =
        .ok { inputs := ["a", "-", "--tree"], format := .json, coloring := .never, jobs := 7, verbose := true } ∧
      Options.inputNames
          { inputs := ["a", "-", "--tree"], format := .json, coloring := .never, jobs := 7, verbose := true } =
        ["a", "-", "--tree"]) ∧
    parse ["-j18446744073709551615"] = .ok { jobs := 18446744073709551615 } ∧
      Options.inputNames { jobs := 18446744073709551615 } = ["-"] := by
  have hseven : Decimal.IsWord 7 "+007" :=
    .digits (.inr rfl) (List.cons_ne_nil '0' ['0', '7']) (List.all_eq_true.mp rfl) (by decide)
  have hformat : Piece.Spelled (.format .json) ["-fjson"] := .setting (.format .json) (.glued rfl)
  have hjobs : Piece.Spelled (.jobs 7) ["--jobs", "+007"] := .setting (.jobs hseven) .long
  have hcoloring : Piece.Spelled (.coloring .never) ["--color=never"] := .setting (.coloring .never) .joined
  have hverbose : Piece.Spelled .verbose ["-v"] := .flag .verbose (.short rfl)
  have hlast : Spelled [.input "--tree"] ["--", "--tree"] := @Spelled.dashes ["--tree"] (by decide)
  have hargs : Spelled
      [.input "a", .format .json, .input "-", .jobs 7, .verbose, .coloring .never, .input "--tree"]
      ["a", "-fjson", "-", "--jobs", "+007", "-v", "--color=never", "--", "--tree"] :=
    .cons (.input (by decide) (.inr (by decide))) (.cons hformat (.cons (.input (by decide) (.inl rfl))
      (.cons hjobs (.cons hverbose (.cons hcoloring hlast)))))
  have hmany : Spelled [.jobs 18446744073709551615] ["-j18446744073709551615"] :=
    .cons (.setting (.jobs (Decimal.isWord_repr _)) (.glued rfl)) .nil
  constructor
  · refine parse_of_spelled hargs ⟨rfl, .inl rfl, .inl rfl, .inl rfl, ?_, ?_, ?_⟩ <;> decide
  · refine parse_of_spelled hmany ⟨rfl, .inr ⟨rfl, rfl⟩, .inr ⟨rfl, rfl⟩, .inl rfl, ?_, ?_, ?_⟩ <;> decide

end Pinpoint.Arguments
