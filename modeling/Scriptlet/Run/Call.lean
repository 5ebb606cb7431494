import Scriptlet.Builtin.Call
import Scriptlet.Run.Inner

/-!
# Calls

A call runs the body of a function in a new frame inside the frame it was declared in, outside of all loops.
Calling a class makes an instance and calls its initializer on it.
-/
namespace Scriptlet

/-- The arguments that a class takes are those of its initializer. -/
def ClassObject.arity (c : ClassObject) : Arity :=
  match c.method? initName with
  | some init => init.arity
  | none => .zero

/-- The context inside a call. -/
def Context.enterCall (c : Context) (frame : FrameId) : Context :=
  { c with frame, callDepth := c.callDepth + 1, loopDepth := 0 }

namespace Eval

/-- A method as a function of its own, bound to an instance. -/
def bindMethod (method : FunctionObject) (id : InstanceId) (cls : ClassObject) : Eval FunctionObject :=
  withStore (·.bindMethod method id cls thisName)

/-- Binds parameters to arguments, in order. -/
def defineAll (frame : FrameId) : List Name → List Value → Eval Unit
  | p :: ps, v :: vs => do
    define frame p v false
    defineAll frame ps vs
  | _, _ => return ()

def checkCount (line : Nat) (arity : Arity) (args : List Value) : Eval Unit := do
  if !arity.accepts args.length then fail line (.argumentCount arity args.length)

/-- Calls nest only so deep. -/
def checkDepth (line : Nat) : Eval Unit := do
  let m ← get
  if m.context.callDepth ≥ m.settings.maxCallDepth then fail line .stackOverflow

end Eval

namespace Inner

variable {ν : Type}

/-- A method as a function of its own; the frame of its receiver is opened. -/
def bindMethod (inner : Inner ν) (method : FunctionObject) (id : InstanceId) (cls : ClassObject) :
    Watched ν FunctionObject := do
  let bound ← Eval.bindMethod method id cls
  inner.tell (.opening (.receiver method.declaration) bound.frame)
  return bound

/-- The frame of a call, with the parameters bound to the arguments. -/
def openCall (inner : Inner ν) (f : FunctionObject) (args : List Value) : Watched ν FrameId := do
  let frame ← inner.openFrame (.routine f.declaration) f.frame
  Eval.defineAll frame f.declaration.params args
  return frame

/-- Runs the body of a function in a frame of its own, where the parameters are bound. -/
def runBody (inner : Inner ν) (f : FunctionObject) (args : List Value) : Watched ν Flow := do
  Eval.checkDepth f.declaration.name.line
  let frame ← inner.openCall f args
  inner.inContext (·.enterCall frame) (inner.runAll f.declaration.body)

/-- Calls a function with arguments of the right number. An initializer yields its instance. -/
def callFunction (inner : Inner ν) (f : FunctionObject) (args : List Value) : Watched ν Value := do
  let flow ← inner.runBody f args
  if f.isInitializer then
    let frames := (← Eval.getStore).frames
    return ← Eval.liftBinding f.declaration.name.line (frames.getAt f.frame 0 thisName)
  match flow with
  | .returning value => return value
  | _ => return .null

/-- Calls any value; `line` is that of the closing parenthesis. -/
def callValue (inner : Inner ν) (callee : Value) (line : Nat) (args : List Value) : Watched ν Value := do
  match callee with
  | .native _ f =>
    Eval.checkCount line f.arity args
    Builtin.callNative line f args
  | .function f =>
    Eval.checkCount line f.arity args
    inner.callFunction f args
  | .classObject c =>
    Eval.checkCount line c.arity args
    let id ← Eval.withStore Store.newInstance
    if let some init := c.method? initName then
      let _ ← inner.callFunction (← inner.bindMethod init id c) args
    return .object id c
  | _ => Eval.fail line .notCallable

end Inner

end Scriptlet
