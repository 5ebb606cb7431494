import Scriptlet.Run.Class
import Scriptlet.Run.Import

/-!
# Statements

Declarations bind names in the current frame; blocks and calls open new frames. A loop ends when its
condition fails or its body breaks, and a return passes through it.
-/
namespace Scriptlet.Inner

variable {ν : Type}

/-- Runs statements in a new frame inside the current one. -/
def runBlock (inner : Inner ν) (body : List Stmt) : Watched ν Flow := do
  let frame ← inner.openFrame (.block body) (← Eval.currentFrame)
  inner.inContext (fun c => { c with frame }) (inner.runAll body)

/-- Evaluates an expression, if there is one, and drops its value. -/
def evaluateAny (inner : Inner ν) : Option Expr → Watched ν Unit
  | none => return ()
  | some e => do
    let _ ← inner.evaluate e

/-- One turn of a `while`; the result ends the loop. -/
def whileTurn (inner : Inner ν) (condition : Expr) (body : Stmt) (increment : Option Expr) :
    Watched ν (Option Flow) := do
  if !(← inner.evaluate condition).isTruthy then return some .normal
  match ← inner.execute body with
  | .breaking => return some .normal
  | .returning value => return some (.returning value)
  | .normal | .continuing =>
    inner.evaluateAny increment
    return none

/-- One turn of a `do`; the result ends the loop. -/
def doTurn (inner : Inner ν) (body : Stmt) (condition : Expr) : Watched ν (Option Flow) := do
  match ← inner.execute body with
  | .breaking => return some .normal
  | .returning value => return some (.returning value)
  | .normal | .continuing =>
    if (← inner.evaluate condition).isTruthy then return none else return some .normal

def runLoop (inner : Inner ν) (turn : Watched ν (Option Flow)) : Watched ν Flow :=
  inner.inContext (fun c => { c with loopDepth := c.loopDepth + 1 }) (Watched.loop turn inner.fuel)

/-- The value with which a variable starts. -/
def initialValue (inner : Inner ν) : Option Expr → Watched ν Value
  | some e => inner.evaluate e
  | none => return .undefined

def executeStmt (inner : Inner ν) : Stmt → Watched ν Flow
  | .expression e => do
    let value ← inner.evaluate e
    if (← Eval.getMachine).settings.echo then Eval.writeLine value
    return .normal
  | .print e => do
    Eval.writeLine (← inner.evaluate e)
    return .normal
  | .letDecl name init => do
    let value ← inner.initialValue init
    Eval.define (← Eval.currentFrame) name value false
    return .normal
  | .constDecl name init => do
    let value ← inner.evaluate init
    Eval.define (← Eval.currentFrame) name value true
    return .normal
  | .block body => inner.runBlock body
  | .ifThen c t => do
    if (← inner.evaluate c).isTruthy then inner.execute t else return .normal
  | .ifElse c t e => do
    if (← inner.evaluate c).isTruthy then inner.execute t else inner.execute e
  | .whileLoop c body inc => inner.runLoop (inner.whileTurn c body inc)
  | .doWhile body c => inner.runLoop (inner.doTurn body c)
  | .breakLoop line => do
    if (← Eval.getContext).loopDepth = 0 then Eval.fail line .breakOutsideLoop
    return .breaking
  | .continueLoop line => do
    if (← Eval.getContext).loopDepth = 0 then Eval.fail line .continueOutsideLoop
    return .continuing
  | .returnValue _ value => do
    match value with
    | some e => return .returning (← inner.evaluate e)
    | none => return .returning .null
  | .function d => do
    let frame ← Eval.currentFrame
    let f ← Eval.newFunction frame false d
    Eval.define frame d.name (.function f) false
    return .normal
  | .classDecl name superclass methods statics => do
    inner.declareClass name superclass methods statics
    return .normal
  | .importFile line path => do
    inner.importFile line path
    return .normal

end Scriptlet.Inner
