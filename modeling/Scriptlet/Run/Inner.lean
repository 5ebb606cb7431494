import Scriptlet.Run.Watch

/-!
# Parts of a node

The rules for a node are written against evaluators for its parts. These have a bound on the turns of a loop
with them, and the observer of the run.
-/
namespace Scriptlet

/-- How a statement ends. -/
inductive Flow where
  | normal
  | breaking
  | continuing
  | returning (value : Value)

/-- Evaluators for the parts of a node. -/
structure Inner (ν : Type) where
  /-- Bound on the turns of a loop. -/
  fuel : Nat
  observer : Observer ν
  evaluate : Expr → Watched ν Value
  execute : Stmt → Watched ν Flow

/-- Repeats `turn` until it yields a result, at most `fuel` times. -/
def Watched.loop (turn : Watched ν (Option α)) : (fuel : Nat) → Watched ν α
  | 0 => throw .outOfFuel
  | n + 1 => do
    match ← turn with
    | some a => return a
    | none => Watched.loop turn n

namespace Inner

variable {ν : Type}

def tell (inner : Inner ν) (event : Event) : Watched ν Unit := Watched.tell inner.observer event

def inContext (inner : Inner ν) (change : Context → Context) (action : Watched ν α) : Watched ν α :=
  Watched.inContext inner.observer change action

/-- Opens a frame inside `enclosing`. -/
def openFrame (inner : Inner ν) (region : Region) (enclosing : FrameId) : Watched ν FrameId := do
  let frame ← Eval.newFrame enclosing
  inner.tell (.opening region frame)
  return frame

/-- Runs statements in order until one does not end normally. -/
def runAll (inner : Inner ν) : List Stmt → Watched ν Flow
  | [] => return .normal
  | s :: ss => do
    match ← inner.execute s with
    | .normal => runAll inner ss
    | flow => return flow

/-- The values of expressions, from left to right. -/
def evaluateAll (inner : Inner ν) : List Expr → Watched ν (List Value)
  | [] => return []
  | e :: es => do
    let v ← inner.evaluate e
    let vs ← evaluateAll inner es
    return v :: vs

end Inner

end Scriptlet
