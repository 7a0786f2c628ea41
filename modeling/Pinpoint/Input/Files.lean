import Pinpoint.Input.Delivery

/-!
# Files

A tree of files below the working directory, as far as opening them goes. Names are followed as the operating system
does it, one step after the other, so each step before the last must be a directory that exists. The working directory
is one for temporary files, and enough steps upwards lead out of it to the top of the system. Of the system only that is
known which it has everywhere.
-/

namespace Pinpoint

/-- Why a file cannot be opened. -/
inductive OpenFailure where
  | notFound
  | notDirectory
  | nameTooLong
  | nulInName
  | other (text : String)
  deriving DecidableEq, Repr, Inhabited

def OpenFailure.text : OpenFailure → String
  | .notFound => "No such file or directory (os error 2)"
  | .notDirectory => "Not a directory (os error 20)"
  | .nameTooLong => "File name too long (os error 36)"
  | .nulInName => "file name contained an unexpected NUL byte"
  | .other text => text

/-- What a name leads to. -/
inductive Entry where
  | file (b : ByteArray)
  | directory
  /-- What the run finds on its standard input. -/
  | stdin
  deriving DecidableEq, Inhabited

/-- What reading it brings. -/
def Entry.supply : Entry → Supply
  | .file b => .own [.bytes b]
  | .directory => .own [.failed .isDirectory]
  | .stdin => .stdin

/-- Entries by their names, step by step from the working directory. -/
structure FileTree where
  entries : List (List String × Entry)
  deriving Inhabited

namespace FileTree

/-- The steps of a name. -/
def steps (name : String) : List String := name.splitOn "/"

/-- A step that stays in the directory. -/
def isIdle (step : String) : Bool := step = "" || step = "."

/-- The tree of entries with relative names; a later entry replaces an earlier one of the same name. -/
def ofList (entries : List (String × Entry)) : FileTree :=
  ⟨entries.reverse.map fun (name, entry) => ((steps name).filter (!isIdle ·), entry)⟩

/-- The entry at a place of the tree: a directory where something lies below. -/
def inside? (t : FileTree) (place : List String) : Option Entry :=
  match t.entries.lookup place with
  | some entry => some entry
  | none => if place.isEmpty || t.entries.any (place.isPrefixOf ·.1) then some .directory else none

/-! ## The system around the tree -/

/-- The place of the working directory in the system. Its own name is not known: a slash is no step of a name, so it is
reached from below and as the start of a name alone. -/
def workingPlace : List String := ["tmp", "/"]

/-- The directories that every system has. -/
def systemDirectories : List (List String) :=
  [[], ["bin"], ["boot"], ["dev"], ["etc"], ["home"], ["lib"], ["media"], ["mnt"], ["opt"], ["proc"], ["proc", "self"],
    ["proc", "self", "fd"], ["root"], ["run"], ["sbin"], ["srv"], ["sys"], ["tmp"], ["usr"], ["usr", "bin"],
    ["usr", "lib"], ["usr", "local"], ["usr", "sbin"], ["usr", "share"], ["var"], ["var", "cache"], ["var", "lib"],
    ["var", "log"], ["var", "spool"], ["var", "tmp"]]

/-- The places of the system that stand for other places. -/
def systemLinks : List (List String × List String) :=
  [(["dev", "fd"], ["proc", "self", "fd"]), (["dev", "stdin"], ["proc", "self", "fd", "0"]),
    (["proc", "self", "cwd"], workingPlace), (["proc", "self", "root"], [])]

/-- The place that a place stands for. -/
def target (place : List String) : List String := (systemLinks.lookup place).getD place

/-- What lies at a place of the system, as far as it is the same everywhere: directories, the empty device and the
standard input. -/
def systemEntry? (place : List String) : Option Entry :=
  if systemDirectories.contains place then some .directory
  else if place = ["dev", "null"] then some (.file .empty)
  else if place = ["proc", "self", "fd", "0"] then some .stdin
  else none

/-- What lies at a place of the system, the tree included. -/
def lookup? (t : FileTree) (place : List String) : Option Entry :=
  if workingPlace.isPrefixOf place then t.inside? (place.drop workingPlace.length) else systemEntry? place

/-! ## Following a name -/

/-- The longest step, in bytes. -/
def maxStep : Nat := 255

/-- The longest name, in bytes. -/
def maxName : Nat := 4095

/-- Follows steps from a directory. The top is its own parent. -/
def follow (t : FileTree) (place : List String) : List String → Except OpenFailure Entry
  | [] => .ok .directory
  | step :: rest =>
    if isIdle step then t.follow place rest
    else if step = ".." then t.follow place.dropLast rest
    else if maxStep < step.utf8ByteSize then .error .nameTooLong
    else
      let place := target (place ++ [step])
      match t.lookup? place with
      | none => .error .notFound
      | some .directory => t.follow place rest
      | some entry => if rest.isEmpty then .ok entry else .error .notDirectory

/-- Opens what a name leads to. -/
def openName (t : FileTree) (name : String) : Except OpenFailure Entry :=
  if name.toList.contains '\x00' then .error .nulInName
  else if name = "" then .error .notFound
  else if maxName < name.utf8ByteSize then .error .nameTooLong
  else t.follow (if name.toList.head? = some '/' then [] else workingPlace) (steps name)

end FileTree

end Pinpoint
