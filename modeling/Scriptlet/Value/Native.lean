import Scriptlet.Value.Arity

/-!
# Native functions

The functions that every program finds in its global scope, and the methods of arrays, lists, sets, strings
and files. A method belongs to its receiver: the place where a collection keeps its elements, a text, or a
path.
-/
namespace Scriptlet

/-- Where a collection keeps its elements. -/
abbrev StorageId := Nat

inductive GlobalNative where
  | clock
  | type
  | array
  | list
  | set
  | string
  | file
  deriving DecidableEq, Repr

namespace GlobalNative

def all : List GlobalNative := [.clock, .type, .array, .list, .set, .string, .file]

def name : GlobalNative → String
  | .clock => "Clock"
  | .type => "Type"
  | .array => "Array"
  | .list => "List"
  | .set => "Set"
  | .string => "String"
  | .file => "File"

def arity : GlobalNative → Arity
  | .clock => .zero
  | .type => .unary
  | .array => .unary
  | .list => .zero
  | .set => .variadic
  | .string => .nullable
  | .file => .unary

end GlobalNative

inductive ArrayMethod where
  | get
  | set
  | concat
  | fill
  | find
  | reverse
  | contains
  deriving DecidableEq, Repr

namespace ArrayMethod

def all : List ArrayMethod := [.get, .set, .concat, .fill, .find, .reverse, .contains]

def name : ArrayMethod → String
  | .get => "get"
  | .set => "set"
  | .concat => "concat"
  | .fill => "fill"
  | .find => "find"
  | .reverse => "reverse"
  | .contains => "contains"

def arity : ArrayMethod → Arity
  | .get => .unary
  | .set => .binary
  | .concat => .unary
  | .fill => .unary
  | .find => .unary
  | .reverse => .zero
  | .contains => .unary

end ArrayMethod

inductive ListMethod where
  | add
  | get
  | set
  | remove
  | concat
  | fill
  | find
  | reverse
  | contains
  | clear
  deriving DecidableEq, Repr

namespace ListMethod

def all : List ListMethod :=
  [.add, .get, .set, .remove, .concat, .fill, .find, .reverse, .contains, .clear]

def name : ListMethod → String
  | .add => "add"
  | .get => "get"
  | .set => "set"
  | .remove => "remove"
  | .concat => "concat"
  | .fill => "fill"
  | .find => "find"
  | .reverse => "reverse"
  | .contains => "contains"
  | .clear => "clear"

def arity : ListMethod → Arity
  | .add => .unary
  | .get => .unary
  | .set => .binary
  | .remove => .unary
  | .concat => .unary
  | .fill => .unary
  | .find => .unary
  | .reverse => .zero
  | .contains => .unary
  | .clear => .zero

end ListMethod

inductive SetMethod where
  | add
  | remove
  | contains
  | size
  | clear
  | toArray
  | toList
  | union
  | intersection
  | difference
  deriving DecidableEq, Repr

namespace SetMethod

def all : List SetMethod :=
  [.add, .remove, .contains, .size, .clear, .toArray, .toList, .union, .intersection, .difference]

def name : SetMethod → String
  | .add => "add"
  | .remove => "remove"
  | .contains => "contains"
  | .size => "size"
  | .clear => "clear"
  | .toArray => "toArray"
  | .toList => "toList"
  | .union => "union"
  | .intersection => "intersection"
  | .difference => "difference"

def arity : SetMethod → Arity
  | .add => .unary
  | .remove => .unary
  | .contains => .unary
  | .size => .zero
  | .clear => .zero
  | .toArray => .zero
  | .toList => .zero
  | .union => .unary
  | .intersection => .unary
  | .difference => .unary

end SetMethod

inductive StringMethod where
  | length
  | isEmpty
  | isNotEmpty
  | isBlank
  | isNotBlank
  | lowercase
  | uppercase
  | trim
  | trimStart
  | trimEnd
  | chars
  | split
  | startsWith
  | endsWith
  | contains
  | substring
  | repeated
  | padStart
  | padEnd
  | charAt
  deriving DecidableEq, Repr

namespace StringMethod

def all : List StringMethod :=
  [.length, .isEmpty, .isNotEmpty, .isBlank, .isNotBlank, .lowercase, .uppercase, .trim, .trimStart,
    .trimEnd, .chars, .split, .startsWith, .endsWith, .contains, .substring, .repeated, .padStart, .padEnd,
    .charAt]

def name : StringMethod → String
  | .length => "length"
  | .isEmpty => "isEmpty"
  | .isNotEmpty => "isNotEmpty"
  | .isBlank => "isBlank"
  | .isNotBlank => "isNotBlank"
  | .lowercase => "lowercase"
  | .uppercase => "uppercase"
  | .trim => "trim"
  | .trimStart => "trimStart"
  | .trimEnd => "trimEnd"
  | .chars => "chars"
  | .split => "split"
  | .startsWith => "startsWith"
  | .endsWith => "endsWith"
  | .contains => "contains"
  | .substring => "substring"
  | .repeated => "repeat"
  | .padStart => "padStart"
  | .padEnd => "padEnd"
  | .charAt => "charAt"

def arity : StringMethod → Arity
  | .split => .unary
  | .startsWith => .unary
  | .endsWith => .unary
  | .contains => .unary
  | .substring => .binary
  | .repeated => .unary
  | .padStart => .binary
  | .padEnd => .binary
  | .charAt => .unary
  | _ => .zero

end StringMethod

inductive FileMethod where
  | create
  | delete
  | exists
  | read
  | readLines
  | write
  | append
  | rename
  | size
  | absolutePath
  | isDirectory
  deriving DecidableEq, Repr

namespace FileMethod

def all : List FileMethod :=
  [.create, .delete, .exists, .read, .readLines, .write, .append, .rename, .size, .absolutePath,
    .isDirectory]

def name : FileMethod → String
  | .create => "create"
  | .delete => "delete"
  | .exists => "exists"
  | .read => "read"
  | .readLines => "readLines"
  | .write => "write"
  | .append => "append"
  | .rename => "rename"
  | .size => "size"
  | .absolutePath => "absolutePath"
  | .isDirectory => "isDirectory"

def arity : FileMethod → Arity
  | .write => .unary
  | .append => .unary
  | .rename => .unary
  | _ => .zero

end FileMethod

/-- A native function, with its receiver if it is a method. -/
inductive Native where
  | global (function : GlobalNative)
  | array (method : ArrayMethod) (receiver : StorageId)
  | list (method : ListMethod) (receiver : StorageId)
  | set (method : SetMethod) (receiver : StorageId)
  | string (method : StringMethod) (receiver : String)
  | file (method : FileMethod) (receiver : String)
  deriving DecidableEq, Repr

namespace Native

def name : Native → String
  | .global f => f.name
  | .array m _ => m.name
  | .list m _ => m.name
  | .set m _ => m.name
  | .string m _ => m.name
  | .file m _ => m.name

def arity : Native → Arity
  | .global f => f.arity
  | .array m _ => m.arity
  | .list m _ => m.arity
  | .set m _ => m.arity
  | .string m _ => m.arity
  | .file m _ => m.arity

end Native

end Scriptlet
