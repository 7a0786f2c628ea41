/-!
# Source paths

A path names a source file. The empty path stands for what has no file: code made inside the compiler, which gives it a
pseudo file name in angle brackets or none at all.
-/

namespace Pinpoint.SourcePath

/-- The path of what has no file. -/
def internal : String := ""

/-- A name in angle brackets, such as `<anon>`, names no file. -/
def isPseudo (name : String) : Bool :=
  name.toList.head? == some '<' && name.toList.getLast? == some '>'

/-- The path for a file name that may be absent. -/
def ofFileName : Option String → String
  | none => internal
  | some name => if isPseudo name then internal else name

/-- The path as people see it. -/
def display (path : String) : String := if path = internal then "<std macros>" else path

end Pinpoint.SourcePath
