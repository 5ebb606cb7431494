import Scriptlet.Tree.Parser.Statement

/-!
# From tokens to trees
-/
namespace Scriptlet

/-- The outcome of parsing: the statements without errors, the problems, the next unused identity. -/
structure Parse where
  statements : List Stmt
  problems : List (Located SyntaxError)
  nextId : NodeId

/-- Parses a list of tokens that ends in the end of the input. Identities are taken from `nextId` on. -/
def Parse.ofTokens (nextId : NodeId) (tokens : List Token) : Parse :=
  match Parser.program.run (.ofTokens tokens nextId) with
  | .ok statements s => ⟨statements, s.problems, s.nextId⟩
  | .error problem s => ⟨[], s.problems ++ [problem], s.nextId⟩

def Parse.hadError (p : Parse) : Bool := !p.problems.isEmpty

end Scriptlet
