import Scriptlet.Builtin.Argument

/-!
# Arrays, lists and sets

The length of an array never changes, a list grows and shrinks, a set holds no two equal elements. Methods
that yield a collection yield one with storage of its own.
-/
namespace Scriptlet.Builtin

def elementsOf (storage : StorageId) : Eval (List Value) :=
  return ((← Eval.getStore).elements storage).toList

def lengthOf (storage : StorageId) : Eval Value :=
  return .number (Number.ofInt ((← Eval.getStore).elements storage).size)

def change (storage : StorageId) (f : Array Value → Array Value) : Eval Unit :=
  Eval.modifyStore (·.updateElements storage f)

def elementAt (storage : StorageId) (i : Nat) : Eval Value :=
  return ((← Eval.getStore).elements storage).getD i .null

/-- Replaces the element at an index and yields the new one. -/
def replaceElement (line : Nat) (kind : CollectionKind) (storage : StorageId) (index value : Value) :
    Eval Value := do
  let i ← elementPosition line kind false storage index
  change storage (·.setIfInBounds i value)
  return value

/-- The elements of two collections of one kind, one after the other. -/
def concatenate (line : Nat) (kind : CollectionKind) (storage : StorageId) : Value → Eval Value
  | .collection other second => do
    if other ≠ kind then Eval.fail line (.concatMismatch kind)
    let joined := (← elementsOf storage) ++ (← elementsOf second)
    Eval.newCollection kind joined.toArray
  | _ => Eval.fail line (.concatMismatch kind)

def fillAll (storage : StorageId) (value : Value) : Eval Value := do
  change storage (·.map fun _ => value)
  return .null

/-- The first element that equals `value`, or `null`. -/
def findElement (storage : StorageId) (value : Value) : Eval Value := do
  let store ← Eval.getStore
  return ((← elementsOf storage).find? fun e => store.equal e value).getD .null

def reversed (kind : CollectionKind) (storage : StorageId) : Eval Value := do
  Eval.newCollection kind (← elementsOf storage).reverse.toArray

def containsElement (storage : StorageId) (value : Value) : Eval Value := do
  return .bool ((← Eval.getStore).holds (← elementsOf storage) value)

def clearAll (storage : StorageId) : Eval Value := do
  change storage fun _ => #[]
  return .null

/-- The property of an array. -/
def arrayProperty (storage : StorageId) (name : Name) : Eval Value := do
  if name.text = "length" then return ← lengthOf storage
  match ArrayMethod.all.find? (·.name == name.text) with
  | some m => freshNative (.array m storage)
  | none => Eval.fail name.line (.undefinedMember .array name.text)

/-- `get` with a text yields the property of that name. -/
def callArray (line : Nat) (m : ArrayMethod) (storage : StorageId) (args : List Value) : Eval Value :=
  match m, args with
  | .get, [.string property] => arrayProperty storage ⟨property, line⟩
  | .get, [index] => do elementAt storage (← elementPosition line .array true storage index)
  | .set, [index, value] => replaceElement line .array storage index value
  | .concat, [other] => concatenate line .array storage other
  | .fill, [value] => fillAll storage value
  | .find, [value] => findElement storage value
  | .reverse, [] => reversed .array storage
  | .contains, [value] => containsElement storage value
  | m, args => countFault line (.array m storage) args

/-- The property of a list. -/
def listProperty (storage : StorageId) (name : Name) : Eval Value := do
  if name.text = "length" then return ← lengthOf storage
  match ListMethod.all.find? (·.name == name.text) with
  | some m => freshNative (.list m storage)
  | none => Eval.fail name.line (.undefinedMember .list name.text)

def callList (line : Nat) (m : ListMethod) (storage : StorageId) (args : List Value) : Eval Value :=
  match m, args with
  | .add, [value] => do
    change storage (·.push value)
    return .null
  | .get, [index] => do elementAt storage (← elementPosition line .list false storage index)
  | .set, [index, value] => replaceElement line .list storage index value
  | .remove, [index] => do
    let i ← elementPosition line .list false storage index
    let removed ← elementAt storage i
    change storage (·.eraseIdxIfInBounds i)
    return removed
  | .concat, [other] => concatenate line .list storage other
  | .fill, [value] => fillAll storage value
  | .find, [value] => findElement storage value
  | .reverse, [] => reversed .list storage
  | .contains, [value] => containsElement storage value
  | .clear, [] => clearAll storage
  | m, args => countFault line (.list m storage) args

/-- The property of a set. -/
def setProperty (storage : StorageId) (name : Name) : Eval Value := do
  match SetMethod.all.find? (·.name == name.text) with
  | some m => freshNative (.set m storage)
  | none => Eval.fail name.line (.undefinedMember .set name.text)

/-- The elements of an argument that has to be a set. -/
def otherSet (line : Nat) (operation : SetMethod) : Value → Eval (List Value)
  | .collection .set storage => elementsOf storage
  | _ => Eval.fail line (.notSet operation)

def callSet (line : Nat) (m : SetMethod) (storage : StorageId) (args : List Value) : Eval Value :=
  match m, args with
  | .add, [value] => do
    if (← Eval.getStore).holds (← elementsOf storage) value then return .bool false
    change storage (·.push value)
    return .bool true
  | .remove, [value] => do
    let store ← Eval.getStore
    match (← elementsOf storage).findIdx? fun e => store.equal e value with
    | none => return .bool false
    | some i =>
      change storage (·.eraseIdxIfInBounds i)
      return .bool true
  | .contains, [value] => containsElement storage value
  | .size, [] => lengthOf storage
  | .clear, [] => clearAll storage
  | .toArray, [] => do Eval.newCollection .array (← elementsOf storage).toArray
  | .toList, [] => do Eval.newCollection .list (← elementsOf storage).toArray
  | .union, [other] => do
    let others ← otherSet line .union other
    Eval.newSet ((← elementsOf storage) ++ others)
  | .intersection, [other] => do
    let others ← otherSet line .intersection other
    let store ← Eval.getStore
    Eval.newSet ((← elementsOf storage).filter fun e => store.holds others e)
  | .difference, [other] => do
    let others ← otherSet line .difference other
    let store ← Eval.getStore
    Eval.newSet ((← elementsOf storage).filter fun e => !store.holds others e)
  | m, args => countFault line (.set m storage) args

end Scriptlet.Builtin
