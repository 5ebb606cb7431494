import Scriptlet.Location
import Scriptlet.Run.Fault
import Scriptlet.Scope.ScopeError
import Scriptlet.Token.Scanner
import Scriptlet.Tree.SyntaxError

/-!
# Diagnostics

What is reported to the user: a problem, its line, and its place in the text. Lines are shown counted from
one.
-/
namespace Scriptlet

inductive Problem where
  | lexical (error : LexicalError)
  | syntactic (error : SyntaxError)
  | scoping (error : ScopeError)
  | runtime (fault : Fault)
  deriving DecidableEq, Repr

def Problem.message : Problem → String
  | .lexical e => e.message
  | .syntactic e => e.message
  | .scoping e => e.message
  | .runtime f => f.message

structure Diagnostic where
  line : Nat
  problem : Problem
  location : Location
  deriving DecidableEq, Repr

namespace Diagnostic

/-- What stands in front of a diagnostic: the file and the line, as far as they are known. -/
def position : (file : Option String) → (line : Option Nat) → String
  | some file, some line => s!"[{file}:{line + 1}] "
  | none, some line => s!"[line {line + 1}] "
  | some file, none => s!"[{file}] "
  | none, none => ""

/-- The shown form of a diagnostic given by its texts. -/
def format (file : Option String) (line : Option Nat) (message location : String) : String :=
  position file line ++
    (if location.isEmpty then "Error: " ++ message else "Error " ++ location ++ ": " ++ message)

def message (d : Diagnostic) : String := d.problem.message

def render (file : Option String) (d : Diagnostic) : String :=
  format file (some d.line) d.message d.location.text

def ofLexical (line : Nat) (e : LexicalError) : Diagnostic := ⟨line, .lexical e, .nowhere⟩

def ofSyntactic (e : Located SyntaxError) : Diagnostic := ⟨e.line, .syntactic e.problem, e.location⟩

def ofScoping (e : Located ScopeError) : Diagnostic := ⟨e.line, .scoping e.problem, e.location⟩

def ofFault (line : Nat) (f : Fault) : Diagnostic := ⟨line, .runtime f, .nowhere⟩

end Diagnostic

/-- The stage of work in which a failure arises. -/
inductive Stage where
  | lexical
  | syntactic
  | scoping
  | runtime
  /-- Reading or writing files. -/
  | files
  /-- Decoding text. -/
  | encoding
  deriving DecidableEq, Repr

namespace Stage

/-- Failures with files and encodings have no line. -/
def hasLine : Stage → Bool
  | .files | .encoding => false
  | _ => true

/-- Only failures of grammar and scope point at a token. -/
def hasLocation : Stage → Bool
  | .syntactic | .scoping => true
  | _ => false

/-- A failure in one line, by its texts. -/
def display (stage : Stage) (line : Nat) (location message : String) : String :=
  match stage with
  | .lexical => s!"[line {line + 1}] Error: {message}"
  | .syntactic | .scoping => s!"[line {line + 1}] Error {location}: {message}"
  | .runtime => s!"[line {line + 1}] {message}"
  | .files | .encoding => message

end Stage

end Scriptlet
