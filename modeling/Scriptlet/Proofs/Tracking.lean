import Scriptlet.Run.Machine
import Scriptlet.Proofs.Frames
import Scriptlet.Proofs.Outcome

/-!
# Tracking values

What is to hold of every value that a run yields or stores, is stated once for all evaluations. A tracking says
which values are allowed, and what is to hold of the store that keeps them; both may depend on a ghost state that
grows along the run. Here are the laws for storages of elements, and how evaluations are put together that touch
nothing but data.
-/
namespace Scriptlet

variable {ν α β : Type}

/-- The machines differ at most in collections, the next identity, files and the clock. -/
def Machine.SameButData (m m' : Machine) : Prop :=
  m' = { m with
    store := { m.store with
      collections := m'.store.collections
      nextIdentity := m'.store.nextIdentity }
    files := m'.files
    clock := m'.clock }

namespace Machine.SameButData

theorem refl (m : Machine) : m.SameButData m := rfl

theorem trans {m m' m'' : Machine} (h : m.SameButData m') (h' : m'.SameButData m'') :
    m.SameButData m'' := by
  unfold SameButData at *
  rw [h', h]

end Machine.SameButData

/-! ## Ordinary faults -/

/-- A name was declared where it is bound already. -/
def Fault.isRedeclared : Fault → Bool
  | .binding (.redeclared _) => true
  | _ => false

/-- The evaluation was stopped by a name that was declared twice. -/
def Halt.redeclares : Halt → Bool
  | .fault _ f => f.isRedeclared
  | .outOfFuel => false

/-- The evaluation was stopped by a fault, other than a name that was declared twice. -/
def Halt.Ordinary : Halt → Prop
  | .fault _ f => f.isRedeclared = false
  | .outOfFuel => False

theorem Halt.Ordinary.elim {h : Halt} {p : Prop} (ho : h.Ordinary) (hr : h.redeclares = true) : p := by
  cases h with
  | fault line f => exact nomatch hr.symm.trans ho
  | outOfFuel => exact nomatch hr

/-! ## Readings -/

/-- The evaluation changes nothing; its result meets `Q`. Where it stops, there is an ordinary fault. -/
def Eval.Reads (m : Machine) (x : Eval α) (Q : α → Prop) : Prop :=
  Meets x m (fun a m' => m' = m ∧ Q a) (fun h m' => h.Ordinary ∧ m' = m)

namespace Eval.Reads

variable {m : Machine} {Q : α → Prop}

theorem pure {a : α} (h : Q a) : Reads m (Pure.pure a) Q := ⟨rfl, h⟩

theorem fail (line : Nat) {f : Fault} (hf : f.isRedeclared = false) : Reads m (Eval.fail line f) Q := ⟨hf, rfl⟩

theorem bind {x : Eval α} {f : α → Eval β} {S : β → Prop} (hx : Reads m x Q)
    (hf : ∀ a, Q a → Reads m (f a) S) : Reads m (x >>= f) S := by
  refine Meets.bind hx ?_
  rintro a m' ⟨rfl, ha⟩
  exact hf a ha

/-- A reading gives its result again. -/
theorem result {x : Eval α} (hx : Reads m x Q) : Reads m x fun a => Q a ∧ x m = .ok a m := by
  unfold Reads Meets at hx ⊢
  split at hx
  · next a m' h =>
    obtain ⟨rfl, ha⟩ := hx
    exact ⟨rfl, ha, h⟩
  · exact hx

theorem getStore : Reads m Eval.getStore (· = m.store) := ⟨rfl, rfl⟩

theorem getMachine : Reads m Eval.getMachine (· = m) := ⟨rfl, rfl⟩

end Eval.Reads

theorem Eval.meets_guard {c : Prop} [Decidable c] {line : Nat} {f : Fault} {x : Eval α} {m : Machine}
    {Q : α → Machine → Prop} {E : Halt → Machine → Prop} (he : c → E (.fault line f) m)
    (hx : ¬c → Meets x m Q E) :
    Meets (do
      if c then Eval.fail line f
      x) m Q E := by
  split
  · next h => exact he h
  · next h => exact hx h

/-! ## Trackings -/

/-- Which values are allowed, and what is to hold of the store that keeps them beside the notes of an observer. -/
structure Tracking (ν : Type) where
  Ghost : Type
  /-- The ghost state may become that one. -/
  le : Ghost → Ghost → Prop
  value : Ghost → Value → Prop
  /-- The function may be a method of a class. -/
  method : Ghost → FunctionObject → Prop := fun _ _ => True
  /-- Methods of the collection may be called. -/
  receiver : Ghost → CollectionKind → StorageId → Prop
  state : Ghost → Store → ν → Prop
  /-- The name may be bound in the frame without a value. -/
  vacant : ν → FrameId → String → Prop
  refl (g : Ghost) : le g g
  trans {g g' g'' : Ghost} : le g g' → le g' g'' → le g g''
  mono {g g' : Ghost} {v : Value} : le g g' → value g v → value g' v
  methodMono {g g' : Ghost} {f : FunctionObject} : le g g' → method g f → method g' f := by exact fun _ h => h

namespace Tracking

/-- The store is as it should be, with a ghost state that came of `g`. -/
def Next (T : Tracking ν) (g : T.Ghost) (s : Store) (n : ν) : Prop := ∃ g', T.le g g' ∧ T.state g' s n

/-- From `m` the evaluation touches data only and keeps what is tracked. Its result meets `R`. Where it stops, there is
an ordinary fault. -/
def Carries (T : Tracking ν) (g : T.Ghost) (m : Machine) (n : ν) (x : Eval α) (R : T.Ghost → α → Prop) : Prop :=
  Meets x m (fun a m' => m.SameButData m' ∧ ∃ g', T.le g g' ∧ T.state g' m'.store n ∧ R g' a)
    (fun h m' => h.Ordinary ∧ m.SameButData m' ∧ T.Next g m'.store n)

variable {T : Tracking ν} {g : T.Ghost} {s s' : Store} {n n' : ν} {m : Machine}

theorem Next.here (h : T.state g s n) : T.Next g s n := ⟨g, T.refl g, h⟩

theorem Next.step (h : T.Next g s n) (hs : ∀ g', T.le g g' → T.state g' s n → T.Next g' s' n') :
    T.Next g s' n' := by
  obtain ⟨g', le, state⟩ := h
  obtain ⟨g'', le', state'⟩ := hs g' le state
  exact ⟨g'', T.trans le le', state'⟩

namespace Carries

variable {R : T.Ghost → α → Prop} {S : T.Ghost → β → Prop}

theorem pure (h : T.state g m.store n) {a : α} (hr : R g a) : T.Carries g m n (Pure.pure a) R :=
  ⟨.refl m, g, T.refl g, h, hr⟩

theorem fail (h : T.state g m.store n) (line : Nat) {f : Fault} (hf : f.isRedeclared = false) :
    T.Carries g m n (Eval.fail line f) R :=
  ⟨hf, .refl m, .here h⟩

theorem bind {x : Eval α} {f : α → Eval β} (hx : T.Carries g m n x R)
    (hf : ∀ a g' m', T.le g g' → T.state g' m'.store n → R g' a → T.Carries g' m' n (f a) S) :
    T.Carries g m n (x >>= f) S := by
  refine Meets.bind hx ?_
  rintro a m' ⟨same, g', le, state, hr⟩
  refine Meets.mono (hf a g' m' le state hr) ?_ ?_
  · rintro b m'' ⟨same', g'', le', state', hs⟩
    exact ⟨same.trans same', g'', T.trans le le', state', hs⟩
  · rintro halt m'' ⟨fault, same', g'', le', state'⟩
    exact ⟨fault, same.trans same', g'', T.trans le le', state'⟩

theorem ite {c : Prop} [Decidable c] {x y : Eval α} (hx : T.Carries g m n x R) (hy : T.Carries g m n y R) :
    T.Carries g m n (if c then x else y) R := by
  split
  · exact hx
  · exact hy

/-- A check in front of an evaluation. -/
theorem guard (h : T.state g m.store n) {c : Prop} [Decidable c] {line : Nat} {f : Fault}
    (hf : f.isRedeclared = false) {x : Eval α} (hx : T.Carries g m n x R) :
    T.Carries g m n (do
      if c then Eval.fail line f
      x) R := by
  split
  · exact fail h line hf
  · exact hx

/-- A step that changes nothing. -/
theorem bindReads (h : T.state g m.store n) {x : Eval α} {Q : α → Prop} {f : α → Eval β} (hx : Eval.Reads m x Q)
    (hf : ∀ a, Q a → T.Carries g m n (f a) S) : T.Carries g m n (x >>= f) S := by
  refine Meets.bind (Meets.mono hx (fun _ _ ha => ha) ?_) ?_
  · rintro halt m' ⟨fault, rfl⟩
    exact ⟨fault, .refl m', .here h⟩
  · rintro a m' ⟨rfl, ha⟩
    exact hf a ha

theorem reads (h : T.state g m.store n) {x : Eval α} {Q : α → Prop} (hx : Eval.Reads m x Q)
    (hr : ∀ a, Q a → R g a) : T.Carries g m n x R := by
  refine Meets.mono hx ?_ ?_
  · rintro a m' ⟨rfl, ha⟩
    exact ⟨.refl m', g, T.refl g, h, hr a ha⟩
  · rintro halt m' ⟨fault, rfl⟩
    exact ⟨fault, .refl m', .here h⟩

end Carries

end Tracking

/-! ## Storages -/

namespace Store

variable {s : Store} {id : StorageId} {f : Array Value → Array Value}

theorem mem_elements {v : Value} (h : v ∈ s.elements id) : ∃ elements ∈ s.collections, v ∈ elements := by
  unfold elements Array.getD at h
  split at h
  · exact ⟨_, Array.getElem_mem _, h⟩
  · exact absurd h (Array.not_mem_empty v)

theorem mem_updateElements {elements : Array Value} (h : elements ∈ (s.updateElements id f).collections) :
    elements = f (s.elements id) ∨ elements ∈ s.collections := by
  obtain ⟨i, hi⟩ := Array.mem_iff_getElem?.1 h
  have there : (s.collections.modify id f)[i]? = some elements := hi
  rw [Array.getElem?_modify] at there
  split at there
  · next heq =>
    subst heq
    obtain ⟨old, hold, rfl⟩ := Option.map_eq_some_iff.1 there
    refine .inl (congrArg f ?_)
    rw [Store.elements, Array.getD_eq_getD_getElem?, hold, Option.getD_some]
  · exact .inr (Array.mem_of_getElem? there)

theorem elements_allocate (s : Store) (elements : Array Value) (id : StorageId) :
    (s.allocate elements).2.elements id = if id = s.collections.size then elements else s.elements id := by
  unfold Store.elements allocate
  rw [Array.getD_eq_getD_getElem?, Array.getD_eq_getD_getElem?, Array.getElem?_push]
  split <;> rfl

theorem elements_updateElements (s : Store) {id : StorageId} (bound : id < s.collections.size)
    (f : Array Value → Array Value) (id' : StorageId) :
    (s.updateElements id f).elements id' = if id = id' then f (s.elements id) else s.elements id' := by
  unfold Store.elements updateElements
  rw [Array.getD_eq_getD_getElem?, Array.getD_eq_getD_getElem?, Array.getD_eq_getD_getElem?, Array.getElem?_modify]
  split
  · next heq =>
    subst heq
    rw [Array.getElem?_eq_getElem bound]
    rfl
  · rfl

theorem All.allocate {Q : Value → Prop} (h : s.All Q) {elements : Array Value} (hv : ∀ v ∈ elements, Q v) :
    (s.allocate elements).2.All Q := by
  refine ⟨h.bindings, fun elements' hmem => ?_, h.fields⟩
  rcases Array.mem_push.1 hmem with there | rfl
  · exact h.elements elements' there
  · exact hv

theorem All.updateElements {Q : Value → Prop} (h : s.All Q) (hv : ∀ v ∈ f (s.elements id), Q v) :
    (s.updateElements id f).All Q := by
  refine ⟨h.bindings, fun elements hmem => ?_, h.fields⟩
  rcases mem_updateElements hmem with rfl | old
  · exact hv
  · exact h.elements elements old

end Store

/-- The values are not equal in any store, unless they are collections of one kind with elements of their own. -/
def Value.Apart (v v' : Value) : Prop :=
  ∀ s : Store, s.equal v v' = true →
    ∃ kind id id', v = .collection kind id ∧ v' = .collection kind id' ∧ id ≠ id'

/-- The collection to which a native function belongs. -/
def Native.receiver? : Native → Option (CollectionKind × StorageId)
  | .array _ id => some (.array, id)
  | .list _ id => some (.list, id)
  | .set _ id => some (.set, id)
  | .global _ | .string .. | .file .. => none

/-- What the tracking has to say of data. The length of an array does not change, and a set holds no values twice. -/
structure Tracking.LawfulData (T : Tracking ν) : Prop where
  null (g : T.Ghost) : T.value g .null
  bool (g : T.Ghost) (b : Bool) : T.value g (.bool b)
  number (g : T.Ghost) (x : Float) : T.value g (.number x)
  string (g : T.Ghost) (text : String) : T.value g (.string text)
  file (g : T.Ghost) (path : String) : T.value g (.file path)
  native {g : T.Ghost} {i : Identity} {f : Native} :
    (∀ kind id, f.receiver? = some (kind, id) → T.value g (.collection kind id)) → T.value g (.native i f)
  receiver {g : T.Ghost} {kind : CollectionKind} {id : StorageId} :
    T.receiver g kind id → T.value g (.collection kind id)
  elements {g : T.Ghost} {s : Store} {n : ν} (id : StorageId) : T.state g s n →
    ∀ v ∈ s.elements id, T.value g v
  identity {g : T.Ghost} {s : Store} {n : ν} : T.state g s n → T.Next g s.freshIdentity.2 n
  allocate {g : T.Ghost} {s : Store} {n : ν} (kind : CollectionKind) {elements : Array Value} : T.state g s n →
    (∀ v ∈ elements, T.value g v) → (kind = .set → elements.toList.Pairwise Value.Apart) →
    ∃ g', T.le g g' ∧ T.state g' (s.allocate elements).2 n ∧ T.value g' (.collection kind s.collections.size)
  change {g : T.Ghost} {s : Store} {n : ν} {kind : CollectionKind} {id : StorageId}
    {f : Array Value → Array Value} : T.state g s n → T.receiver g kind id →
    (∀ v ∈ f (s.elements id), T.value g v) →
    (kind = .array → (f (s.elements id)).size = (s.elements id).size) →
    (kind = .set → (s.elements id).toList.Pairwise Value.Apart →
      (f (s.elements id)).toList.Pairwise Value.Apart) →
    T.Next g (s.updateElements id f) n

end Scriptlet
