import Scriptlet.Token.Basic

/-!
# Where a problem lies

Problems of the text itself point at a token, problems met while running only at a line.
-/
namespace Scriptlet

inductive Location where
  | nowhere
  | atEnd
  | atLexeme (lexeme : String)
  deriving DecidableEq, Repr

def Location.text : Location → String
  | .nowhere => ""
  | .atEnd => "at end"
  | .atLexeme lexeme => "at '" ++ lexeme ++ "'"

/-- A problem with its line and place in the text. -/
structure Located (ε : Type) where
  line : Nat
  location : Location
  problem : ε
  deriving DecidableEq, Repr

def Token.location (t : Token) : Location :=
  if t.isEnd then .atEnd else .atLexeme t.lexeme

/-- A problem at a token. -/
def Located.atToken (t : Token) (problem : ε) : Located ε := ⟨t.line, t.location, problem⟩

end Scriptlet
