import Scriptlet.Builtin.Collection
import Scriptlet.Builtin.File
import Scriptlet.Builtin.Text

/-!
# Native functions and properties of built-in values
-/
namespace Scriptlet.Builtin

/-- Seconds since the epoch. Every reading is later than the one before. -/
def readClock : Eval Value := do
  let m ← get
  set { m with clock := m.clock + 1 }
  return .number (Number.ofInt (m.clock / 1000000) + Number.ofInt (m.clock % 1000000) / 1000000)

/-- An array of `null`s. -/
def makeArray (line : Nat) (size : Value) : Eval Value := do
  match size with
  | .number x =>
    if x ≥ 0 && Number.isWhole x then
      let count := Number.toUnsigned 64 x
      if count * elementSize > storageLimit then Eval.fail line .arrayTooLarge
      return ← Eval.newCollection .array (Array.replicate count .null)
    Eval.fail line (.arraySize (← Eval.textOf size))
  | _ => Eval.fail line (.arraySize (← Eval.textOf size))

def callGlobal (line : Nat) (f : GlobalNative) (args : List Value) : Eval Value :=
  match f, args with
  | .clock, [] => readClock
  | .type, [value] => return .string value.type.text
  | .array, [size] => makeArray line size
  | .list, [] => Eval.newCollection .list #[]
  | .set, elements => Eval.newSet elements
  | .string, [] => return .string ""
  | .string, [value] => do return .string (← Eval.textOf value)
  | .file, [path] => do return .file (← Eval.textOf path)
  | f, args => countFault line (.global f) args

/-- Calls a native function whose argument count was checked. -/
def callNative (line : Nat) (f : Native) (args : List Value) : Eval Value :=
  match f with
  | .global g => callGlobal line g args
  | .array m storage => callArray line m storage args
  | .list m storage => callList line m storage args
  | .set m storage => callSet line m storage args
  | .string m text => callString line m text args
  | .file m path => callFile line m path args

/-- The property of a built-in value; none if the value has no properties of its own. -/
def property? (receiver : Value) (name : Name) : Option (Eval Value) :=
  match receiver with
  | .collection .array storage => some (arrayProperty storage name)
  | .collection .list storage => some (listProperty storage name)
  | .collection .set storage => some (setProperty storage name)
  | .string text => some (stringProperty text name)
  | .file path => some (fileProperty path name)
  | _ => none

/-- The fault of assigning to a property of a built-in value; none if the value is none. -/
def assignFault? (receiver : Value) : Option Fault :=
  match receiver with
  | .collection .. | .string _ | .file _ => some (.fixedProperties receiver.type)
  | _ => none

end Scriptlet.Builtin
