import Scriptlet.Run.Inner

/-!
# Declarations of functions and classes

A function keeps the frame it is declared in. Methods of a subclass see `super` one frame out, and when a
method is bound to its receiver, `this` is one frame further in. Static methods have no receiver; an empty
frame stands in its place.
-/
namespace Scriptlet

namespace Eval

def currentFrame : Eval FrameId := return (← getContext).frame

def newFunction (frame : FrameId) (isInitializer : Bool) (d : FunctionDecl) : Eval FunctionObject :=
  return ⟨← freshIdentity, d, frame, isInitializer⟩

/-- The methods of a class by name; of two with one name the later counts. -/
def methodTable (frame : FrameId) (canInitialize : Bool) : List FunctionDecl → Table FunctionObject →
    Eval (Table FunctionObject)
  | [], table => return table
  | d :: ds, table => do
    let f ← newFunction frame (canInitialize && d.name.text == initName) d
    methodTable frame canInitialize ds (table.insert d.name.text f)

/-- A frame that binds `super`, for the methods of a subclass. -/
def newSuperFrame (enclosing : FrameId) (parent : ClassObject) : Eval FrameId := do
  let frame ← newFrame enclosing
  modifyStore (·.updateFrames (·.bind frame superName (.classObject parent) true))
  return frame

/-- The nearest frame that binds a name, from a frame outward, if it takes the value. -/
def holder (frame : FrameId) (name : Name) (value : Value) : Eval FrameId := do
  liftBinding name.line ((← getStore).frames.assignTarget frame name.text value)

/-- Assigns to the nearest binding of a name, from a frame outward. -/
def assignFrom (frame : FrameId) (name : Name) (value : Value) : Eval Unit := do
  let target ← holder frame name value
  modifyStore (·.updateFrames (·.store target name.text value))

end Eval

namespace Inner

variable {ν : Type}

/-- The class that a superclass clause names. -/
def evaluateSuperclass (inner : Inner ν) : Option Variable → Watched ν (Option ClassObject)
  | none => return none
  | some use => do
    match ← inner.evaluate (.variable use) with
    | .classObject c => return some c
    | _ => Eval.fail use.name.line .superclassNotClass

/-- The frame in which the methods of a class are declared. -/
def openClass (inner : Inner ν) (declaration : Stmt) (frame : FrameId) :
    Option ClassObject → Watched ν FrameId
  | none => return frame
  | some parent => do
    let superFrame ← Eval.newSuperFrame frame parent
    inner.tell (.opening (.superclass declaration) superFrame)
    return superFrame

/-- The class that a declaration in the given frame makes. -/
def makeClass (inner : Inner ν) (frame : FrameId) (parent : Option ClassObject) (name : Name)
    (superclass : Option Variable) (methods statics : List FunctionDecl) : Watched ν ClassObject := do
  let declaration : Stmt := .classDecl name superclass methods statics
  let classFrame ← inner.openClass declaration frame parent
  let instanceMethods ← Eval.methodTable classFrame true methods ∅
  let staticFrame ← inner.openFrame (.statics declaration) classFrame
  let staticMethods ← Eval.methodTable staticFrame false statics ∅
  let id ← Eval.freshIdentity
  let ancestors := (parent.map ClassObject.layers).getD []
  return ⟨⟨id, name.text, instanceMethods, staticMethods⟩, ancestors⟩

/-- The name is bound before the methods are made, and given the class after that. -/
def declareClass (inner : Inner ν) (name : Name) (superclass : Option Variable)
    (methods statics : List FunctionDecl) : Watched ν Unit := do
  let parent ← inner.evaluateSuperclass superclass
  let frame ← Eval.currentFrame
  Eval.define frame name .null false
  let c ← inner.makeClass frame parent name superclass methods statics
  Eval.assignFrom frame name (.classObject c)

end Inner

end Scriptlet
