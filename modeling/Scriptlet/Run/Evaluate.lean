import Scriptlet.Run.Expression
import Scriptlet.Run.Statement

/-!
# Running programs

Expressions yield values, statements yield a flow. The rules for nodes are tied to themselves with a counter
that falls at each step inward and bounds the turns of each loop.
-/
namespace Scriptlet

mutual

/-- Evaluates an expression with at most `fuel` steps inward. -/
def watchExpr (observer : Observer ν) : (fuel : Nat) → Expr → Watched ν Value
  | 0, _ => throw .outOfFuel
  | n + 1, e => do
    Watched.tell observer (.evaluating e)
    Inner.evaluateExpr ⟨n, observer, watchExpr observer n, watchStmt observer n⟩ e

/-- Executes a statement with at most `fuel` steps inward. -/
def watchStmt (observer : Observer ν) : (fuel : Nat) → Stmt → Watched ν Flow
  | 0, _ => throw .outOfFuel
  | n + 1, s => do
    Watched.tell observer (.executing s)
    Inner.executeStmt ⟨n, observer, watchExpr observer n, watchStmt observer n⟩ s

end

/-- The evaluators for the parts of a node at the given fuel. -/
def innerAt (observer : Observer ν) (fuel : Nat) : Inner ν :=
  ⟨fuel, observer, watchExpr observer fuel, watchStmt observer fuel⟩

def watchAll (observer : Observer ν) (fuel : Nat) : List Stmt → Watched ν Unit
  | [] => return ()
  | s :: ss => do
    let _ ← watchStmt observer fuel s
    watchAll observer fuel ss

/-- Executes the statements of one text until the first fault. -/
def watchText (observer : Observer ν) (fuel : Nat) (statements : List Stmt) : Watched ν Unit := do
  Watched.tell observer (.starting statements)
  watchAll observer fuel statements

/-! ## Runs without an observer -/

def evaluate (fuel : Nat) (e : Expr) : Eval Value := (watchExpr .silent fuel e).unwatched

def execute (fuel : Nat) (s : Stmt) : Eval Flow := (watchStmt .silent fuel s).unwatched

/-- Calls a value from outside a program. -/
def callValue (fuel : Nat) (callee : Value) (line : Nat) (args : List Value) : Eval Value :=
  ((innerAt .silent fuel).callValue callee line args).unwatched

def interpret (fuel : Nat) (statements : List Stmt) : Eval Unit :=
  (watchText .silent fuel statements).unwatched

end Scriptlet
