import Scriptlet.Text.Search

/-!
# Paths

A path is a text; its parts are the names between slashes. Empty parts and inner dots say nothing, a dot at
the start and double dots are kept.
-/
namespace Scriptlet.Path

/-- The parts between slashes, empty ones included. -/
def segments (path : String) : List String :=
  (Text.split ['/'] path.toList).map String.ofList

def isAbsolute (path : String) : Bool := path.toList.head? == some '/'

def endsInSlash (path : String) : Bool := path.toList.getLast? == some '/'

/-- Number of slashes in front. -/
def leadingSlashes (path : String) : Nat := (path.toList.takeWhile (· == '/')).length

/-- What tells one path from another. -/
structure Parts where
  absolute : Bool
  /-- A relative path that starts with a dot. -/
  leadingDot : Bool
  names : List String
  deriving DecidableEq, Repr

def parts (path : String) : Parts :=
  let segments := segments path
  { absolute := isAbsolute path
    leadingDot := segments.head? == some "."
    names := segments.filter fun name => name != "" && name != "." }

/-- Two texts of the same path. -/
def same (a b : String) : Bool := parts a == parts b

/-- `path` seen from the directory `base`. -/
def join (base path : String) : String :=
  if isAbsolute path || base.isEmpty then path
  else if endsInSlash base then base ++ path
  else base ++ "/" ++ path

/-- The last name of a path, unless that is a double dot. -/
def fileName? (path : String) : Option String :=
  match (parts path).names.getLast? with
  | some ".." => none
  | last => last

/-- The text of an absolute path. -/
def ofNames (names : List String) : String := "/" ++ "/".intercalate names

/-- The path from the root on, given the working directory. Two slashes in front are kept, and so is a slash
at the end. The empty path has no such form. -/
def absolute? (workingDirectory : List String) (path : String) : Option String :=
  if path.isEmpty then none
  else
    let names := (parts path).names
    let start :=
      if !isAbsolute path then ofNames (workingDirectory ++ names)
      else if leadingSlashes path == 2 then "/" ++ ofNames names
      else ofNames names
    some (if endsInSlash path && !endsInSlash start then start ++ "/" else start)

end Scriptlet.Path
