import Scriptlet.Files.Path
import Scriptlet.Number.Layout
import Scriptlet.Value.Frame

/-!
# The store

Frames, the elements of collections and the fields of instances, each at its index. Nothing is ever removed
from the store, so an index stays good.

A collection may contain itself. Comparing and writing a value therefore go down at most as many levels as
there are collections; a value without such a cycle is never deeper than that.
-/
namespace Scriptlet

structure Store where
  frames : Frames
  collections : Array (Array Value)
  instances : Array (Table Value)
  /-- The next unused identity of a function or class. -/
  nextIdentity : Identity

namespace Store

def elements (s : Store) (storage : StorageId) : Array Value := s.collections.getD storage #[]

def field? (s : Store) (id : InstanceId) (name : String) : Option Value :=
  s.instances[id]?.bind (·.find? name)

/-! ## Equality -/

/-- Equality of values whose parts are compared by `equal`. Shared things are equal to themselves only;
collections of one kind are also equal when their elements are. Sets ignore the order of elements. -/
def equalWith (s : Store) (equal : Value → Value → Bool) : Value → Value → Bool
  | .undefined, .undefined => true
  | .null, .null => true
  | .bool a, .bool b => a == b
  | .number a, .number b => a == b
  | .string a, .string b => a == b
  | .file a, .file b => Path.same a b
  | .native a _, .native b _ => a == b
  | .function f, .function g => f.id == g.id
  | .classObject c, .classObject d => c.id == d.id
  | .object a _, .object b _ => a == b
  | .collection kind a, .collection kind' b =>
    kind == kind' &&
      (a == b ||
        let xs := (s.elements a).toList
        let ys := (s.elements b).toList
        xs.length == ys.length &&
          match kind with
          | .set => xs.all fun x => ys.any fun y => equal y x
          | .array | .list => (xs.zip ys).all fun (x, y) => equal x y)
  | _, _ => false

/-- Equality of values down to `depth` levels of collections. -/
def equalUpTo (s : Store) : (depth : Nat) → Value → Value → Bool
  | 0 => s.equalWith fun _ _ => false
  | n + 1 => s.equalWith (equalUpTo s n)

/-- Equality in the language. -/
def equal (s : Store) (a b : Value) : Bool := s.equalUpTo s.collections.size a b

/-- An element equals `value`. -/
def holds (s : Store) (elements : List Value) (value : Value) : Bool :=
  elements.any fun e => s.equal e value

/-- Keeps the first of equal elements. -/
def distinct (s : Store) (elements : List Value) : List Value :=
  elements.foldl (fun kept e => if s.holds kept e then kept else kept ++ [e]) []

/-! ## Texts -/

/-- The text of a value whose parts are written by `text`. -/
def textWith (s : Store) (text : Value → String) : Value → String
  | .undefined => "undefined"
  | .null => "null"
  | .bool b => if b then "true" else "false"
  | .number x => Number.text x
  | .string t => t
  | .native _ f => "<native fun " ++ f.name ++ ">"
  | .function f => "<fun " ++ f.name ++ ">"
  | .classObject c => c.name
  | .object _ c => c.name ++ " instance"
  | .collection kind storage =>
    let parts := ", ".intercalate ((s.elements storage).toList.map text)
    match kind with
    | .array => "Array [" ++ parts ++ "]"
    | .list => "List [" ++ parts ++ "]"
    | .set => "Set \x7b" ++ parts ++ "\x7d"
  | .file path => "File(" ++ path ++ ")"

/-- The text of a value down to `depth` levels of collections. -/
def textUpTo (s : Store) : (depth : Nat) → Value → String
  | 0 => s.textWith fun _ => ""
  | n + 1 => s.textWith (textUpTo s n)

/-- The text of a value in the language. -/
def text (s : Store) (v : Value) : String := s.textUpTo s.collections.size v

/-! ## Changes -/

def freshIdentity (s : Store) : Identity × Store :=
  (s.nextIdentity, { s with nextIdentity := s.nextIdentity + 1 })

/-- New storage with the given elements; its identity is the number of storages before. -/
def allocate (s : Store) (elements : Array Value) : StorageId × Store :=
  (s.collections.size, { s with collections := s.collections.push elements })

def updateElements (s : Store) (storage : StorageId) (change : Array Value → Array Value) : Store :=
  { s with collections := s.collections.modify storage change }

/-- A new instance without fields; its identity is the number of instances before. -/
def newInstance (s : Store) : InstanceId × Store :=
  (s.instances.size, { s with instances := s.instances.push ∅ })

def setField (s : Store) (id : InstanceId) (name : String) (value : Value) : Store :=
  { s with instances := s.instances.modify id (·.insert name value) }

def updateFrames (s : Store) (change : Frames → Frames) : Store :=
  { s with frames := change s.frames }

/-- A new frame inside `enclosing`. -/
def newFrame (s : Store) (enclosing : FrameId) : FrameId × Store :=
  (s.frames.size, { s with frames := s.frames.child enclosing })

/-- The method as a function of its own whose frame binds `this` to the instance. -/
def bindMethod (s : Store) (method : FunctionObject) (id : InstanceId) (cls : ClassObject)
    (receiverName : String) : FunctionObject × Store :=
  let (frame, s) := s.newFrame method.frame
  let s := s.updateFrames (·.bind frame receiverName (.object id cls) true)
  let (identity, s) := s.freshIdentity
  ({ method with id := identity, frame }, s)

/-- The global frame with the native functions, and nothing else. -/
def initial : Store :=
  GlobalNative.all.foldl
    (fun s f =>
      let (id, s) := s.freshIdentity
      s.updateFrames (·.bind 0 f.name (.native id (.global f)) false))
    ⟨#[⟨∅, none⟩], #[], #[], 0⟩

end Store

end Scriptlet
