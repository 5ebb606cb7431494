import Scriptlet.Run.Call
import Scriptlet.Run.Operator

/-!
# Expressions

A name with a recorded distance is read and assigned in the frame at that distance, any other name in the
global frame.
-/
namespace Scriptlet

def Literal.value : Literal → Value
  | .number x => .number x
  | .bool b => .bool b
  | .null => .null
  | .string s => .string s

namespace Eval

/-! ## Names -/

/-- Reads a name at its recorded distance, or else as a global. -/
def readName (id : NodeId) (name : Name) : Eval Value := do
  let m ← get
  match m.distances[id]? with
  | some d => liftBinding name.line (m.store.frames.getAt m.context.frame d name.text)
  | none => liftBinding name.line (m.store.frames.get globalFrame name.text)

/-- The frame in which an assignment takes place. -/
def assignmentFrame (target : Variable) (value : Value) : Eval FrameId := do
  let m ← get
  let name := target.name
  match m.distances[target.id]? with
  | some d =>
    liftBinding name.line (m.store.frames.assignTargetAt m.context.frame d name.text value)
  | none => liftBinding name.line (m.store.frames.assignTarget globalFrame name.text value)

def assignName (target : Variable) (value : Value) : Eval Unit := do
  let frame ← assignmentFrame target value
  modifyStore (·.updateFrames (·.store frame target.name.text value))

/-! ## Properties -/

/-- The instance whose field is assigned. -/
def assignedInstance (object : Value) (name : Name) : Eval InstanceId :=
  match object with
  | .object id _ => return id
  | .classObject _ => fail name.line .classFieldSet
  | other => fail name.line ((Builtin.assignFault? other).getD .noFields)

/-- The superclass and the receiver of a use of `super`: the receiver is one frame inside the frame of
`super`. -/
def readSuperclass (id : NodeId) (line : Nat) : Eval (ClassObject × InstanceId × ClassObject) := do
  let m ← get
  match m.distances[id]? with
  | none => fail line .superOutsideSubclass
  | some d =>
    let frames := m.store.frames
    match ← liftBinding line (frames.getAt m.context.frame d superName) with
    | .classObject parent =>
      match ← liftBinding line (frames.getAt m.context.frame (d - 1) thisName) with
      | .object instanceId c => return (parent, instanceId, c)
      | _ => fail line .superWithoutInstance
    | _ => fail line .superclassNotClass

end Eval

namespace Inner

variable {ν : Type}

/-- The fields of an instance hide its methods. -/
def readProperty (inner : Inner ν) (object : Value) (name : Name) : Watched ν Value := do
  match object with
  | .object id c =>
    match (← Eval.getStore).field? id name.text with
    | some value => return value
    | none =>
      match c.method? name.text with
      | some method => return .function (← inner.bindMethod method id c)
      | none => Eval.fail name.line (.undefinedProperty name.text)
  | .classObject c =>
    match c.static? name.text with
    | some method => return .function method
    | none => Eval.fail name.line (.undefinedStatic name.text)
  | other =>
    match Builtin.property? other name with
    | some read => read
    | none => Eval.fail name.line .noProperties

/-- A method of the superclass, bound to the receiver. -/
def readSuper (inner : Inner ν) (id : NodeId) (line : Nat) (method : Name) : Watched ν Value := do
  let (parent, instanceId, c) ← Eval.readSuperclass id line
  match parent.method? method.text with
  | some found => return .function (← inner.bindMethod found instanceId c)
  | none => Eval.fail method.line (.undefinedProperty method.text)

/-! ## Rules -/

/-- `and` and `or` yield one of their operands; the other connectives are short for these. -/
def evaluateLogical (inner : Inner ν) (left : Expr) (op : Connective) (line : Nat) (right : Expr) :
    Watched ν Value := do
  match op with
  | .or =>
    let l ← inner.evaluate left
    if l.isTruthy then return l else inner.evaluate right
  | .and =>
    let l ← inner.evaluate left
    if l.isTruthy then inner.evaluate right else return l
  | op => inner.evaluate (Expr.expandConnective left op line right)

def evaluateExpr (inner : Inner ν) : Expr → Watched ν Value
  | .literal v => return v.value
  | .group e => inner.evaluate e
  | .array es => do Eval.newCollection .array (← inner.evaluateAll es).toArray
  | .unary op line e => do op.apply line (← inner.evaluate e)
  | .binary l op line r => do
    let left ← inner.evaluate l
    let right ← inner.evaluate r
    op.apply line left right
  | .logical l op line r => inner.evaluateLogical l op line r
  | .variable use => Eval.readName use.id use.name
  | .this id line => Eval.readName id ⟨thisName, line⟩
  | .assign target e => do
    let value ← inner.evaluate e
    inner.tell (.assigning target value)
    Eval.assignName target value
    return value
  | .call f line args => do
    let callee ← inner.evaluate f
    let values ← inner.evaluateAll args
    inner.callValue callee line values
  | .get o name => do inner.readProperty (← inner.evaluate o) name
  | .set o name e => do
    let id ← Eval.assignedInstance (← inner.evaluate o) name
    let value ← inner.evaluate e
    Eval.modifyStore (·.setField id name.text value)
    return value
  | .super id line method => inner.readSuper id line method

end Inner

end Scriptlet
