import Scriptlet.Table
import Scriptlet.Tree.Basic
import Scriptlet.Value.Native

/-!
# Values

Numbers, truth values, texts and paths are plain data. Everything that a program can share has an identity:
functions, classes, instances, and the storage in which a collection keeps its elements. Fields and elements
change and live in the store; what never changes (the declaration of a function, the methods of a class) is
part of the value.
-/
namespace Scriptlet

/-- Tells functions and classes apart. -/
abbrev Identity := Nat

abbrev FrameId := Nat

abbrev InstanceId := Nat

/-- A declared routine with the frame it was declared in. -/
structure FunctionObject where
  id : Identity
  declaration : FunctionDecl
  frame : FrameId
  isInitializer : Bool

namespace FunctionObject

def name (f : FunctionObject) : String := f.declaration.name.text

def arity (f : FunctionObject) : Arity := .exactly f.declaration.params.length

end FunctionObject

/-- What one class declares itself. -/
structure ClassLayer where
  id : Identity
  name : String
  methods : Table FunctionObject
  statics : Table FunctionObject

/-- A class with the classes it inherits from, nearest first. -/
structure ClassObject where
  own : ClassLayer
  ancestors : List ClassLayer

namespace ClassObject

def name (c : ClassObject) : String := c.own.name

def id (c : ClassObject) : Identity := c.own.id

def layers (c : ClassObject) : List ClassLayer := c.own :: c.ancestors

/-- The nearest declaration of a method. -/
def method? (c : ClassObject) (name : String) : Option FunctionObject :=
  c.layers.findSome? (·.methods.find? name)

/-- The nearest declaration of a static method. -/
def static? (c : ClassObject) (name : String) : Option FunctionObject :=
  c.layers.findSome? (·.statics.find? name)

end ClassObject

inductive CollectionKind where
  /-- Fixed length. -/
  | array
  /-- Grows and shrinks. -/
  | list
  /-- No two equal elements, in the order of insertion. -/
  | set
  deriving DecidableEq, Repr

inductive Value where
  /-- A variable that was declared without a value and not assigned yet. -/
  | undefined
  | null
  | bool (value : Bool)
  | number (value : Float)
  | string (text : String)
  /-- Each read of a method yields a native function with an identity of its own. -/
  | native (id : Identity) (function : Native)
  | function (function : FunctionObject)
  | classObject (class_ : ClassObject)
  | object (id : InstanceId) (class_ : ClassObject)
  | collection (kind : CollectionKind) (storage : StorageId)
  | file (path : String)

instance : Inhabited Value := ⟨.null⟩

/-- The types that programs see. -/
inductive ValueType where
  | undefined
  | null
  | boolean
  | number
  | string
  | nativeFunction
  | function
  | classObject
  | object
  | array
  | list
  | set
  | file
  deriving DecidableEq, Repr

def ValueType.text : ValueType → String
  | .undefined => "Undefined"
  | .null => "Null"
  | .boolean => "Boolean"
  | .number => "Number"
  | .string => "String"
  | .nativeFunction => "NativeFunction"
  | .function => "Function"
  | .classObject => "Class"
  | .object => "Instance"
  | .array => "Array"
  | .list => "List"
  | .set => "Set"
  | .file => "File"

def CollectionKind.type : CollectionKind → ValueType
  | .array => .array
  | .list => .list
  | .set => .set

namespace Value

def type : Value → ValueType
  | .undefined => .undefined
  | .null => .null
  | .bool _ => .boolean
  | .number _ => .number
  | .string _ => .string
  | .native .. => .nativeFunction
  | .function _ => .function
  | .classObject _ => .classObject
  | .object .. => .object
  | .collection kind _ => kind.type
  | .file _ => .file

/-- `null` and zero are false, all else but `false` itself is true. -/
def isTruthy : Value → Bool
  | .null => false
  | .bool b => b
  | .number x => x != 0
  | _ => true

/-- Neither `null` nor a missing value. -/
def isConcrete : Value → Bool
  | .null | .undefined => false
  | _ => true

end Value

end Scriptlet
