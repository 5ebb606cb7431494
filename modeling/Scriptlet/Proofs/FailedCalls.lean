import Mathlib.Data.List.Basic
import Scriptlet.Proofs.Steps
import Scriptlet.Proofs.Watching

/-!
# Failed calls

The methods of collections and strings look at their arguments before they change anything, and a change cannot fail. So
a call that fails leaves everything as it was. A method answers arguments for which it has no rule with a fault about
their number; since its arity is checked first, and accepts exactly the numbers for which there is a rule, it never
comes to that.
-/
namespace Scriptlet

variable {α β ν : Type}

/-! ## Counts of arguments -/

namespace Arity

variable {args : List Value}

theorem accepts_exactly {k n : Nat} : (exactly k).accepts n = true ↔ n = k := by
  rw [accepts, Bool.and_eq_true, decide_eq_true_iff, decide_eq_true_iff]
  exact ⟨fun h => Nat.le_antisymm h.2 h.1, fun h => ⟨Nat.le_of_eq h.symm, Nat.le_of_eq h⟩⟩

theorem eq_nil_of_zero (h : zero.accepts args.length = true) : args = [] :=
  List.eq_nil_of_length_eq_zero (accepts_exactly.1 h)

theorem exists_of_unary (h : unary.accepts args.length = true) : ∃ v, args = [v] :=
  List.length_eq_one_iff.1 (accepts_exactly.1 h)

theorem exists_of_binary (h : binary.accepts args.length = true) : ∃ v w, args = [v, w] :=
  List.length_eq_two.1 (accepts_exactly.1 h)

end Arity

/-- The halt complains about the number of arguments. -/
def Halt.isCountFault : Halt → Bool
  | .fault _ (.argumentCount ..) => true
  | _ => false

/-- The evaluation ends with a result and a machine as `P` says, or it leaves the machine as it was, and then it does not
complain about the number of arguments. -/
def Eval.Careful (m : Machine) (P : Machine → Prop) (x : Eval α) : Prop :=
  Meets x m (fun _ m' => P m') fun h m' => m' = m ∧ h.isCountFault = false

namespace Eval.Careful

variable {m : Machine} {P : Machine → Prop}

theorem pure {a : α} (h : P m) : Careful m P (Pure.pure a) := h

theorem fail {line : Nat} {f : Fault} (hf : (Halt.fault line f).isCountFault = false) :
    Careful (α := α) m P (Eval.fail line f) := ⟨rfl, hf⟩

/-- First something is looked up. -/
theorem bind {x : Eval α} {f : α → Eval β} (hx : Careful m (· = m) x) (hf : ∀ a, Careful m P (f a)) :
    Careful m P (x >>= f) := by
  refine Meets.bind hx ?_
  rintro a m' rfl
  exact hf a

theorem guard {c : Prop} [Decidable c] {line : Nat} {f : Fault} {x : Eval α}
    (hf : (Halt.fault line f).isCountFault = false) (hx : Careful m P x) :
    Careful m P (do
      if c then Eval.fail line f
      x) :=
  Eval.meets_guard (fun _ => ⟨rfl, hf⟩) fun _ => hx

end Eval.Careful

namespace Builtin

variable {m : Machine} {line : Nat} {storage : StorageId}

/-! ## Looking at arguments -/

theorem careful_integer (what : NumericArgument) (v : Value) : Eval.Careful m (· = m) (integer line what v) := by
  unfold integer
  split
  · exact .pure rfl
  · exact .fail rfl

theorem careful_elementPosition (kind : CollectionKind) (wrap : Bool) (v : Value) :
    Eval.Careful m (· = m) (elementPosition line kind wrap storage v) := by
  unfold elementPosition
  refine .bind (careful_integer _ v) fun index => .bind (rfl : m = m) fun s => ?_
  split
  · exact .pure rfl
  · exact .fail rfl

theorem careful_elementAt (i : Nat) : Eval.Careful m (· = m) (elementAt storage i) := (rfl : m = m)

theorem careful_elementsOf (storage : StorageId) : Eval.Careful m (· = m) (elementsOf storage) := (rfl : m = m)

theorem careful_getStore : Eval.Careful m (· = m) Eval.getStore := (rfl : m = m)

theorem careful_textOf (v : Value) : Eval.Careful m (· = m) (Eval.textOf v) := (rfl : m = m)

theorem careful_paddingChar (fill : Value) : Eval.Careful m (· = m) (paddingChar line fill) := by
  refine .bind (careful_textOf fill) fun t => ?_
  split
  · exact .pure rfl
  · exact .fail rfl

theorem careful_otherSet (operation : SetMethod) (v : Value) :
    Eval.Careful m (· = m) (otherSet line operation v) := by
  unfold otherSet
  split
  · exact careful_elementsOf _
  · exact .fail rfl

/-! ## Methods -/

theorem careful_replaceElement (kind : CollectionKind) (index value : Value) :
    Eval.Careful m (fun _ => True) (replaceElement line kind storage index value) :=
  .bind (careful_elementPosition kind false index) fun _ => trivial

theorem careful_concatenate (kind : CollectionKind) (other : Value) :
    Eval.Careful m (fun _ => True) (concatenate line kind storage other) := by
  unfold concatenate
  split
  · exact .guard rfl trivial
  · exact .fail rfl

theorem careful_arrayProperty (name : Name) : Eval.Careful m (fun _ => True) (arrayProperty storage name) := by
  unfold arrayProperty
  split
  · exact trivial
  · split
    · exact trivial
    · exact .fail rfl

theorem careful_callArray (method : ArrayMethod) {args : List Value}
    (accepted : method.arity.accepts args.length = true) :
    Eval.Careful m (fun _ => True) (callArray line method storage args) := by
  cases method with
  | get =>
    obtain ⟨index, rfl⟩ := Arity.exists_of_unary accepted
    cases index with
    | string property => exact careful_arrayProperty _
    | _ => exact .bind (careful_elementPosition .array true _) fun i => trivial
  | set =>
    obtain ⟨index, value, rfl⟩ := Arity.exists_of_binary accepted
    exact careful_replaceElement .array index value
  | concat =>
    obtain ⟨other, rfl⟩ := Arity.exists_of_unary accepted
    exact careful_concatenate .array other
  | fill | find | contains =>
    obtain ⟨value, rfl⟩ := Arity.exists_of_unary accepted
    exact trivial
  | reverse =>
    obtain rfl := Arity.eq_nil_of_zero accepted
    exact trivial

theorem careful_callList (method : ListMethod) {args : List Value}
    (accepted : method.arity.accepts args.length = true) :
    Eval.Careful m (fun _ => True) (callList line method storage args) := by
  cases method with
  | get =>
    obtain ⟨index, rfl⟩ := Arity.exists_of_unary accepted
    exact .bind (careful_elementPosition .list false index) fun i => trivial
  | set =>
    obtain ⟨index, value, rfl⟩ := Arity.exists_of_binary accepted
    exact careful_replaceElement .list index value
  | remove =>
    obtain ⟨index, rfl⟩ := Arity.exists_of_unary accepted
    exact .bind (careful_elementPosition .list false index) fun i => .bind (careful_elementAt i) fun _ => trivial
  | concat =>
    obtain ⟨other, rfl⟩ := Arity.exists_of_unary accepted
    exact careful_concatenate .list other
  | add | fill | find | contains =>
    obtain ⟨value, rfl⟩ := Arity.exists_of_unary accepted
    exact trivial
  | reverse | clear =>
    obtain rfl := Arity.eq_nil_of_zero accepted
    exact trivial

theorem careful_callSet (method : SetMethod) {args : List Value}
    (accepted : method.arity.accepts args.length = true) :
    Eval.Careful m (fun _ => True) (callSet line method storage args) := by
  cases method with
  | add =>
    obtain ⟨value, rfl⟩ := Arity.exists_of_unary accepted
    refine .bind careful_getStore fun s => .bind (careful_elementsOf storage) fun vs => ?_
    split
    · exact trivial
    · exact trivial
  | remove =>
    obtain ⟨value, rfl⟩ := Arity.exists_of_unary accepted
    refine .bind careful_getStore fun s => .bind (careful_elementsOf storage) fun vs => ?_
    split
    · exact trivial
    · exact trivial
  | contains =>
    obtain ⟨value, rfl⟩ := Arity.exists_of_unary accepted
    exact trivial
  | size | clear | toArray | toList =>
    obtain rfl := Arity.eq_nil_of_zero accepted
    exact trivial
  | union | intersection | difference =>
    obtain ⟨other, rfl⟩ := Arity.exists_of_unary accepted
    exact .bind (careful_otherSet _ other) fun _ => trivial

theorem careful_pad (text : String) (wanted : Int) (fill : Char) (atStart : Bool) :
    Eval.Careful m (fun _ => True) (pad line text wanted fill atStart) := .guard rfl trivial

theorem careful_callString (method : StringMethod) (text : String) {args : List Value}
    (accepted : method.arity.accepts args.length = true) :
    Eval.Careful m (fun _ => True) (callString line method text args) := by
  cases method with
  | length | isEmpty | isNotEmpty | isBlank | isNotBlank | lowercase | uppercase | trim | trimStart | trimEnd | chars =>
    obtain rfl := Arity.eq_nil_of_zero accepted
    exact trivial
  | split | startsWith | endsWith | contains =>
    obtain ⟨other, rfl⟩ := Arity.exists_of_unary accepted
    exact trivial
  | substring =>
    obtain ⟨first, last, rfl⟩ := Arity.exists_of_binary accepted
    exact .bind (careful_integer _ first) fun _ => .bind (careful_integer _ last) fun _ => .guard rfl trivial
  | repeated =>
    obtain ⟨times, rfl⟩ := Arity.exists_of_unary accepted
    refine .bind (careful_integer _ times) fun _ => .guard rfl ?_
    split
    · exact trivial
    · exact .guard rfl trivial
  | padStart | padEnd =>
    obtain ⟨wanted, fill, rfl⟩ := Arity.exists_of_binary accepted
    exact .bind (careful_integer _ wanted) fun _ => .bind (careful_paddingChar fill) fun _ => careful_pad text _ _ _
  | charAt =>
    obtain ⟨index, rfl⟩ := Arity.exists_of_unary accepted
    refine .bind (careful_integer _ index) fun i => ?_
    unfold charAt
    split
    · exact .fail rfl
    · split
      · exact trivial
      · exact trivial

/-! ## Refused calls -/

section Refused

variable {args : List Value}

theorem callArray_of_refused {method : ArrayMethod} (refused : method.arity.accepts args.length = false) :
    callArray line method storage args = countFault line (.array method storage) args := by
  unfold callArray
  split
  case h_9 => rfl
  all_goals exact (Bool.false_ne_true (refused.symm.trans rfl)).elim

theorem callList_of_refused {method : ListMethod} (refused : method.arity.accepts args.length = false) :
    callList line method storage args = countFault line (.list method storage) args := by
  unfold callList
  split
  case h_11 => rfl
  all_goals exact (Bool.false_ne_true (refused.symm.trans rfl)).elim

theorem callSet_of_refused {method : SetMethod} (refused : method.arity.accepts args.length = false) :
    callSet line method storage args = countFault line (.set method storage) args := by
  unfold callSet
  split
  case h_11 => rfl
  all_goals exact (Bool.false_ne_true (refused.symm.trans rfl)).elim

theorem callString_of_refused {method : StringMethod} {text : String}
    (refused : method.arity.accepts args.length = false) :
    callString line method text args = countFault line (.string method text) args := by
  unfold callString
  split
  case h_21 => rfl
  all_goals exact (Bool.false_ne_true (refused.symm.trans rfl)).elim

end Refused

end Builtin

/-! ## Calls of properties -/

/-- A method of a collection or a string. -/
inductive Native.IsDataMethod : Native → Prop where
  | array (method : ArrayMethod) (storage : StorageId) : IsDataMethod (.array method storage)
  | list (method : ListMethod) (storage : StorageId) : IsDataMethod (.list method storage)
  | set (method : SetMethod) (storage : StorageId) : IsDataMethod (.set method storage)
  | string (method : StringMethod) (text : String) : IsDataMethod (.string method text)

namespace Builtin

variable {m : Machine} {line : Nat} {f : Native} {args : List Value}

theorem careful_callNative (hf : f.IsDataMethod) (accepted : f.arity.accepts args.length = true) :
    Eval.Careful m (fun _ => True) (callNative line f args) := by
  cases hf with
  | array method storage => exact careful_callArray method accepted
  | list method storage => exact careful_callList method accepted
  | set method storage => exact careful_callSet method accepted
  | string method text => exact careful_callString method text accepted

theorem callNative_of_refused (hf : f.IsDataMethod) (refused : f.arity.accepts args.length = false) :
    callNative line f args = countFault line f args := by
  cases hf with
  | array method storage => exact callArray_of_refused refused
  | list method storage => exact callList_of_refused refused
  | set method storage => exact callSet_of_refused refused
  | string method text => exact callString_of_refused refused

/-- A method has a rule for the arguments exactly if its arity accepts their number. -/
theorem countFault_iff (hf : f.IsDataMethod) :
    (∃ line' arity given m', callNative line f args m = .error (.fault line' (.argumentCount arity given)) m') ↔
      f.arity.accepts args.length = false := by
  constructor
  · rintro ⟨line', arity, given, m', failed⟩
    refine Bool.eq_false_iff.2 fun accepted => ?_
    obtain ⟨-, other⟩ := Meets.of_error (careful_callNative hf accepted) failed
    exact Bool.false_ne_true (other.symm.trans rfl)
  · intro refused
    rw [callNative_of_refused hf refused]
    exact ⟨line, f.arity, args.length, m, rfl⟩

end Builtin

/-- A value that a property of a collection or a string may have: a number, or a method. -/
def Value.IsDataProperty (v : Value) : Prop :=
  (∃ x, v = .number x) ∨ ∃ id f, v = .native id f ∧ f.IsDataMethod

namespace Builtin

variable {m : Machine}

theorem meets_freshNative {f : Native} (hf : f.IsDataMethod) :
    Meets (freshNative f) m (fun v _ => v.IsDataProperty) fun _ m' => m' = m := .inr ⟨_, f, rfl, hf⟩

/-- Reading a property gives a value or leaves the machine as it was. -/
theorem property?_data {receiver : Value} (h : receiver.type ∈ [.array, .list, .set, .string]) (name : Name) :
    ∃ read, property? receiver name = some read ∧
      ∀ m, Meets read m (fun v _ => v.IsDataProperty) fun _ m' => m' = m := by
  cases receiver with
  | collection kind storage =>
    cases kind with
    | array =>
      refine ⟨_, rfl, fun m => ?_⟩
      unfold arrayProperty
      split
      · exact .inl ⟨_, rfl⟩
      · split
        · exact meets_freshNative (.array _ storage)
        · exact (rfl : m = m)
    | list =>
      refine ⟨_, rfl, fun m => ?_⟩
      unfold listProperty
      split
      · exact .inl ⟨_, rfl⟩
      · split
        · exact meets_freshNative (.list _ storage)
        · exact (rfl : m = m)
    | set =>
      refine ⟨_, rfl, fun m => ?_⟩
      unfold setProperty
      split
      · exact meets_freshNative (.set _ storage)
      · exact (rfl : m = m)
  | string text =>
    refine ⟨_, rfl, fun m => ?_⟩
    unfold stringProperty
    split
    · exact meets_freshNative (.string _ text)
    · exact (rfl : m = m)
  | _ => exact absurd h (by simp [Value.type])

end Builtin

/-- A call of a property that fails leaves the machine and the notes on it as they were. -/
theorem Inner.meets_callValue (inner : Inner ν) {v : Value} (hv : v.IsDataProperty) (line : Nat) (args : List Value)
    (m : Machine) (n : ν) :
    Meets (inner.callValue v line args) (m, n) (fun _ _ => True) fun _ w => w = (m, n) := by
  rcases hv with ⟨x, rfl⟩ | ⟨id, f, rfl, hf⟩
  · exact (rfl : (m, n) = (m, n))
  · have counted := Eval.Reads.checkCount (m := m) line f.arity args
    refine Meets.bind (Q := fun _ w => w = (m, n) ∧ f.arity.accepts args.length = true)
      (Watched.meets_unseen (Meets.mono counted ?_ ?_)) ?_
    · rintro _ m' ⟨rfl, accepted⟩
      exact ⟨rfl, accepted⟩
    · rintro _ m' ⟨-, rfl⟩
      rfl
    · rintro _ _ ⟨rfl, accepted⟩
      refine Watched.meets_unseen (Meets.mono (Builtin.careful_callNative hf accepted) (fun _ _ _ => trivial) ?_)
      rintro _ m' ⟨rfl, -⟩
      rfl

/-- Whatever is read of an array, a list, a set or a string and called with whatever arguments: if it fails, then the
machine is the one before, with all its collections. And a method that is called with as many arguments as its arity
accepts has a rule for them. -/
theorem failed_calls_change_nothing (inner : Inner ν) {receiver : Value}
    (h : receiver.type ∈ [.array, .list, .set, .string]) (name : Name) :
    ∃ read, Builtin.property? receiver name = some read ∧
      (∀ m halt m', read m = .error halt m' → m' = m) ∧
      ∀ m₀ v m₁, read m₀ = .ok v m₁ → ∀ line args m,
        (∀ n halt w, inner.callValue v line args (m, n) = .error halt w → w = (m, n)) ∧
        ∀ id f, v = .native id f →
          ((∃ line' arity given m', Builtin.callNative line f args m =
            .error (.fault line' (.argumentCount arity given)) m') ↔ f.arity.accepts args.length = false) := by
  obtain ⟨read, hread, meets⟩ := Builtin.property?_data h name
  refine ⟨read, hread, fun m halt m' failed => (meets m).of_error failed, fun m₀ v m₁ got line args m => ?_⟩
  have hv : v.IsDataProperty := (meets m₀).of_ok got
  refine ⟨fun n halt w failed => (inner.meets_callValue hv line args m n).of_error failed, ?_⟩
  rintro id f rfl
  rcases hv with ⟨x, hx⟩ | ⟨id', f', hf, method⟩
  · cases hx
  · cases hf
    exact Builtin.countFault_iff method

namespace WrongIndex

/-- The list 0 has one element. -/
def machine : Machine :=
  { Machine.initial ⟨false, 3⟩ .collected ⟨[], []⟩ 0 with store.collections := #[#[.null]] }

def inner : Inner Unit := ⟨0, .silent, fun _ => throw .outOfFuel, fun _ => throw .outOfFuel⟩

/-- An element cannot be set by a name. -/
theorem failed_calls_change_nothing_there :
    (Value.collection .list 0).type ∈ [ValueType.array, .list, .set, .string] ∧
      ∃ read m₁ w, Builtin.property? (.collection .list 0) ⟨"set", 1⟩ = some read ∧
        read machine = .ok (.native machine.store.nextIdentity (.list .set 0)) m₁ ∧
        inner.callValue (.native machine.store.nextIdentity (.list .set 0)) 1 [.string "first", .null] (machine, ()) =
          .error (.fault 1 (.argumentNotNumber (.index .list) .string)) w ∧
        w = (machine, ()) := by
  have type : (Value.collection .list 0).type ∈ [ValueType.array, .list, .set, .string] := by decide
  obtain ⟨read, hread, -, calls⟩ := failed_calls_change_nothing inner type ⟨"set", 1⟩
  cases hread
  have got : Builtin.listProperty 0 ⟨"set", 1⟩ machine =
    .ok (.native machine.store.nextIdentity (.list .set 0)) _ := rfl
  have failed : inner.callValue (.native machine.store.nextIdentity (.list .set 0)) 1 [.string "first", .null]
    (machine, ()) = .error (.fault 1 (.argumentNotNumber (.index .list) .string)) _ := rfl
  exact ⟨type, _, _, _, rfl, got, failed, (calls _ _ _ got 1 _ machine).1 _ _ _ failed⟩

end WrongIndex

end Scriptlet
