import Scriptlet.Value.Basic

/-!
# Frames

A frame binds names to values and lies inside an older frame, except for the global one. A binding can be
constant. The first concrete value that a binding is given fixes its type. Values, constants and types are kept
in tables of their own.
-/
namespace Scriptlet

structure Binding where
  value : Value
  constant : Bool
  /-- The type of the first concrete value, once there was one. -/
  type : Option ValueType

/-- The type that a value fixes for its variable. -/
def Value.fixedType? (v : Value) : Option ValueType :=
  if v.isConcrete then some v.type else none

/-- What a frame knows of its names, in three tables side by side. -/
structure Bindings where
  values : Table Value
  constants : List String
  types : Table ValueType

instance : EmptyCollection Bindings := ⟨∅, [], ∅⟩

namespace Bindings

def contains (t : Bindings) (name : String) : Bool := t.values.contains name

/-- The binding of a name, put together from the tables. -/
def find? (t : Bindings) (name : String) : Option Binding :=
  (t.values.find? name).map fun value => ⟨value, t.constants.contains name, t.types.find? name⟩

/-- The types after a name was given a value: the first concrete value counts. -/
def recordType (t : Bindings) (name : String) (value : Value) : Table ValueType :=
  match t.types.find? name, value.fixedType? with
  | none, some type => t.types.insert name type
  | _, _ => t.types

/-- Binds a name. A constant stays constant, and a type that was recorded stays. -/
def bind (t : Bindings) (name : String) (value : Value) (constant : Bool) : Bindings where
  values := t.values.insert name value
  constants := if constant then t.constants.insert name else t.constants
  types := t.recordType name value

/-- Gives a bound name another value. -/
def store (t : Bindings) (name : String) (value : Value) : Bindings :=
  if t.contains name then
    { t with values := t.values.insert name value, types := t.recordType name value }
  else t

def erase (t : Bindings) (name : String) : Bindings where
  values := t.values.erase name
  constants := t.constants.filter (· ≠ name)
  types := t.types.erase name

variable (t : Bindings) (name other : String) (value : Value) (constant : Bool)

theorem find?_recordType :
    (t.recordType name value).find? other =
      if name = other then t.types.find? name <|> value.fixedType? else t.types.find? other := by
  by_cases same : name = other
  · subst same
    rw [if_pos rfl]
    unfold recordType
    cases recorded : t.types.find? name with
    | some type => exact recorded
    | none =>
      cases value.fixedType? with
      | some type => simp
      | none => exact recorded
  · rw [if_neg same]
    unfold recordType
    split
    · rw [Table.find?_insert, if_neg same]
    · rfl

theorem contains_constants_bind :
    (t.bind name value constant).constants.contains other =
      if name = other then constant || t.constants.contains name else t.constants.contains other := by
  by_cases same : name = other
  · subst same
    cases constant <;> simp [bind]
  · cases constant <;> simp [bind, same, Ne.symm same]

@[simp]
theorem find?_bind :
    (t.bind name value constant).find? other =
      if name = other then
        some ⟨value, constant || t.constants.contains name, t.types.find? name <|> value.fixedType?⟩
      else t.find? other := by
  have types := t.find?_recordType name other value
  have constants := t.contains_constants_bind name other value constant
  by_cases same : name = other
  · simp_all [find?, bind]
  · simp_all [find?, bind]

@[simp]
theorem find?_store :
    (t.store name value).find? other =
      if name = other then (t.find? name).map fun b => { b with value, type := b.type <|> value.fixedType? }
      else t.find? other := by
  have types := t.find?_recordType name other value
  by_cases same : name = other
  · subst same
    cases found : t.values.find? name <;> simp_all [store, contains, Table.contains, find?]
  · cases found : t.values.find? name <;> simp_all [store, contains, Table.contains, find?]

@[simp]
theorem find?_erase : (t.erase name).find? other = if name = other then none else t.find? other := by
  by_cases same : name = other
  · simp [find?, erase, same]
  · simp [find?, erase, same, Ne.symm same]

end Bindings

structure Frame where
  bindings : Bindings
  enclosing : Option FrameId

instance : Inhabited Frame := ⟨∅, none⟩

def Frame.contains (f : Frame) (name : String) : Bool := f.bindings.contains name

/-- Why a name cannot be bound, read or assigned. -/
inductive BindingError where
  | redeclared (name : String)
  | undefined (name : String)
  | uninitialized (name : String)
  | constant (name : String)
  | typeMismatch (name : String) (given fixed : ValueType)
  | unreachable (name : String)
  deriving DecidableEq, Repr

def BindingError.message : BindingError → String
  | .redeclared name => s!"Cannot redeclare variable {name}."
  | .undefined name => s!"Undefined variable {name}."
  | .uninitialized name => s!"Variable {name} used before initialization."
  | .constant name => s!"Cannot reassign constant {name}."
  | .typeMismatch name given fixed =>
    s!"Cannot assign a value of type {given.text} to variable {name} of type {fixed.text}."
  | .unreachable name => s!"Scope of {name} is no longer reachable."

/-- All frames of a run, older ones first. -/
abbrev Frames := Array Frame

namespace Frames

/-- The binding of a name in the given frame itself. -/
def bindingAt? (fs : Frames) (f : FrameId) (name : String) : Option Binding :=
  fs[f]?.bind (·.bindings.find? name)

def enclosing? (fs : Frames) (f : FrameId) : Option FrameId := fs[f]?.bind (·.enclosing)

/-- The frame `distance` steps outward. -/
def ancestor? (fs : Frames) : (distance : Nat) → FrameId → Option FrameId
  | 0, f => some f
  | d + 1, f =>
    match fs.enclosing? f with
    | none => none
    | some outer => ancestor? fs d outer

/-- The nearest frame that binds a name, from `f` outward. A frame lies in an older one. -/
def holder? (fs : Frames) (name : String) (f : FrameId) : Option FrameId :=
  if (fs.bindingAt? f name).isSome then some f
  else
    match fs.enclosing? f with
    | none => none
    | some outer => if outer < f then holder? fs name outer else none
termination_by f

/-- A new frame inside `enclosing`; its identity is the number of frames before. -/
def child (fs : Frames) (enclosing : FrameId) : Frames := fs.push ⟨∅, some enclosing⟩

/-- Changes the bindings of one frame. -/
def update (fs : Frames) (f : FrameId) (change : Bindings → Bindings) : Frames :=
  fs.modify f fun frame => { frame with bindings := change frame.bindings }

/-- Binds a name in a frame. A binding that was there keeps its type and stays constant. -/
def bind (fs : Frames) (f : FrameId) (name : String) (value : Value) (constant : Bool) : Frames :=
  fs.update f (·.bind name value constant)

/-- Gives a bound name another value. -/
def store (fs : Frames) (f : FrameId) (name : String) (value : Value) : Frames :=
  fs.update f (·.store name value)

/-- Removes the binding of a name. -/
def unbind (fs : Frames) (f : FrameId) (name : String) : Frames :=
  fs.update f (·.erase name)

/-- A name is declared once per frame. -/
def defineError? (fs : Frames) (f : FrameId) (name : String) : Option BindingError :=
  if (fs.bindingAt? f name).isSome then some (.redeclared name) else none

/-- The value of a name in the given frame itself. -/
def readAt (fs : Frames) (f : FrameId) (name : String) : Except BindingError Value :=
  match fs.bindingAt? f name with
  | none => .error (.undefined name)
  | some b =>
    match b.value with
    | .undefined => .error (.uninitialized name)
    | value => .ok value

/-- Why a value cannot be assigned to a name in the given frame itself. -/
def storeError? (fs : Frames) (f : FrameId) (name : String) (value : Value) : Option BindingError :=
  match fs.bindingAt? f name with
  | none => some (.undefined name)
  | some b =>
    if b.constant then some (.constant name)
    else
      match value.fixedType?, b.type with
      | some given, some fixed => if given = fixed then none else some (.typeMismatch name given fixed)
      | _, _ => none

/-! ## Access by name and by distance -/

def define (fs : Frames) (f : FrameId) (name : String) (value : Value) (constant : Bool) :
    Except BindingError Frames :=
  match fs.defineError? f name with
  | some e => .error e
  | none => .ok (fs.bind f name value constant)

def get (fs : Frames) (f : FrameId) (name : String) : Except BindingError Value :=
  match fs.holder? name f with
  | none => .error (.undefined name)
  | some g => fs.readAt g name

/-- The frame at a distance, for an access to `name`. -/
def ancestor (fs : Frames) (f : FrameId) (distance : Nat) (name : String) : Except BindingError FrameId :=
  match fs.ancestor? distance f with
  | none => .error (.unreachable name)
  | some g => .ok g

def getAt (fs : Frames) (f : FrameId) (distance : Nat) (name : String) : Except BindingError Value :=
  match fs.ancestor f distance name with
  | .error e => .error e
  | .ok g => fs.readAt g name

/-- The frame in which an assignment from `f` takes place, checked for the value. -/
def assignTarget (fs : Frames) (f : FrameId) (name : String) (value : Value) :
    Except BindingError FrameId :=
  match fs.holder? name f with
  | none => .error (.undefined name)
  | some g =>
    match fs.storeError? g name value with
    | some e => .error e
    | none => .ok g

/-- The frame in which an assignment at a distance from `f` takes place, checked for the value. -/
def assignTargetAt (fs : Frames) (f : FrameId) (distance : Nat) (name : String) (value : Value) :
    Except BindingError FrameId :=
  match fs.ancestor f distance name with
  | .error e => .error e
  | .ok g =>
    match fs.storeError? g name value with
    | some e => .error e
    | none => .ok g

def assign (fs : Frames) (f : FrameId) (name : String) (value : Value) : Except BindingError Frames :=
  match fs.assignTarget f name value with
  | .error e => .error e
  | .ok g => .ok (fs.store g name value)

def assignAt (fs : Frames) (f : FrameId) (distance : Nat) (name : String) (value : Value) :
    Except BindingError Frames :=
  match fs.assignTargetAt f distance name value with
  | .error e => .error e
  | .ok g => .ok (fs.store g name value)

end Frames

end Scriptlet
