import Scriptlet.Proofs.Frames
import Scriptlet.Proofs.Likeness

/-!
# Stores that are alike

In two runs of one program the same things have the same identities, but a function may come from another
parse of its text. Values are alike if they are equal up to that, and stores if they hold like values at the
same places. Then names are found in the same frames, values have equal texts, and the same values are equal.
-/
namespace Scriptlet

/-! ## Values -/

/-- Which nodes and lines correspond in two runs. New nodes are counted from a first one in each run, and the
n-th new nodes correspond. -/
structure Pairing where
  first : NodeId
  first' : NodeId
  /-- The nodes from before that correspond. -/
  old : NodeId → NodeId → Prop
  /-- How far a line may have moved. -/
  shift : Nat

namespace Pairing

variable (p : Pairing)

def Fresh (id id' : NodeId) : Prop := ∃ i, id = p.first + i ∧ id' = p.first' + i

def Node (id id' : NodeId) : Prop := (id < p.first ∧ id' < p.first' ∧ p.old id id') ∨ p.Fresh id id'

def Line (l l' : Nat) : Prop := l' = l ∨ l' = l + p.shift

def trees : Matching := ⟨p.Node, p.Line⟩

/-- For trees whose nodes are all new. -/
def newTrees : Matching := ⟨p.Fresh, p.Line⟩

end Pairing

/-- The tables have the same names, for related values. -/
def Table.Paired {α β : Type} (R : α → β → Prop) (t : Table α) (t' : Table β) : Prop :=
  ∀ name, Option.Rel R (t.find? name) (t'.find? name)

section Relation

variable (p : Pairing)

structure FunctionObject.Like (f f' : FunctionObject) : Prop where
  id : f'.id = f.id
  declaration : f.declaration.Like p.trees f'.declaration
  frame : f'.frame = f.frame
  isInitializer : f'.isInitializer = f.isInitializer

structure ClassLayer.Like (c c' : ClassLayer) : Prop where
  id : c'.id = c.id
  name : c'.name = c.name
  methods : Table.Paired (FunctionObject.Like p) c.methods c'.methods
  statics : Table.Paired (FunctionObject.Like p) c.statics c'.statics

structure ClassObject.Like (c c' : ClassObject) : Prop where
  own : c.own.Like p c'.own
  ancestors : List.Forall₂ (ClassLayer.Like p) c.ancestors c'.ancestors

inductive Value.Like : Value → Value → Prop where
  | undefined : Like .undefined .undefined
  | null : Like .null .null
  | bool (b : Bool) : Like (.bool b) (.bool b)
  | number (x : Float) : Like (.number x) (.number x)
  | string (text : String) : Like (.string text) (.string text)
  | native (id : Identity) (f : Native) : Like (.native id f) (.native id f)
  | function {f f'} : f.Like p f' → Like (.function f) (.function f')
  | classObject {c c'} : c.Like p c' → Like (.classObject c) (.classObject c')
  | object {c c'} (id : InstanceId) : c.Like p c' → Like (.object id c) (.object id c')
  | collection (kind : CollectionKind) (storage : StorageId) :
    Like (.collection kind storage) (.collection kind storage)
  | file (path : String) : Like (.file path) (.file path)

end Relation

section Places

variable (V : Value → Value → Prop)

structure Binding.Paired (b b' : Binding) : Prop where
  value : V b.value b'.value
  constant : b'.constant = b.constant
  type : b'.type = b.type

structure Bindings.Paired (t t' : Bindings) : Prop where
  values : Table.Paired V t.values t'.values
  constants : t'.constants = t.constants
  types : t'.types = t.types

structure Frame.Paired (f f' : Frame) : Prop where
  bindings : f.bindings.Paired V f'.bindings
  enclosing : f'.enclosing = f.enclosing

def Frames.Paired (fs fs' : Frames) : Prop := List.Forall₂ (Frame.Paired V) fs.toList fs'.toList

def Elements.Paired (vs vs' : Array Value) : Prop := List.Forall₂ V vs.toList vs'.toList

/-- The stores hold related values at the same places. -/
structure Store.Paired (s s' : Store) : Prop where
  frames : s.frames.Paired V s'.frames
  collections : List.Forall₂ (Elements.Paired V) s.collections.toList s'.collections.toList
  instances : List.Forall₂ (Table.Paired V) s.instances.toList s'.instances.toList
  nextIdentity : s'.nextIdentity = s.nextIdentity

end Places

abbrev Store.Like (p : Pairing) : Store → Store → Prop := Store.Paired (Value.Like p)

/-! ## What is like itself -/

theorem Table.Paired.refl {α : Type} {R : α → α → Prop} (h : ∀ a, R a a) (t : Table α) : Table.Paired R t t :=
  fun name => rel_refl h (t.find? name)

section Refl

variable {p : Pairing} (hp : p.trees.Refl)

include hp

theorem FunctionObject.like_refl (f : FunctionObject) : f.Like p f :=
  ⟨rfl, Stmt.routine_like_refl hp _, rfl, rfl⟩

theorem ClassLayer.like_refl (c : ClassLayer) : c.Like p c :=
  ⟨rfl, rfl, .refl (FunctionObject.like_refl hp) _, .refl (FunctionObject.like_refl hp) _⟩

theorem ClassObject.like_refl (c : ClassObject) : c.Like p c :=
  ⟨c.own.like_refl hp, List.forall₂_same.2 fun d _ => d.like_refl hp⟩

theorem Value.like_refl (v : Value) : v.Like p v := by
  cases v with
  | function f => exact .function (f.like_refl hp)
  | classObject c => exact .classObject (c.like_refl hp)
  | object id c => exact .object id (c.like_refl hp)
  | _ => constructor

theorem Store.like_refl (s : Store) : s.Like p s where
  frames := by
    apply List.forall₂_same.2
    intro f _
    exact ⟨⟨.refl (Value.like_refl hp) _, rfl, rfl⟩, rfl⟩
  collections := by
    apply List.forall₂_same.2
    intro vs _
    exact List.forall₂_same.2 fun v _ => v.like_refl hp
  instances := by
    apply List.forall₂_same.2
    intro t _
    exact .refl (Value.like_refl hp) t
  nextIdentity := rfl

end Refl

/-! ## Lists and tables -/

section Lists

variable {α β : Type} {R : α → β → Prop}

theorem forall₂_getElem? {l : List α} {l' : List β} (h : List.Forall₂ R l l') (i : Nat) :
    Option.Rel R l[i]? l'[i]? := by
  induction h generalizing i with
  | nil => exact .none
  | cons ha _ ih =>
    cases i with
    | zero => exact .some ha
    | succ i => exact ih i

theorem forall₂_modify {l : List α} {l' : List β} (h : List.Forall₂ R l l') {f : α → α} {f' : β → β}
    (hf : ∀ a b, R a b → R (f a) (f' b)) (i : Nat) : List.Forall₂ R (l.modify i f) (l'.modify i f') := by
  induction h generalizing i with
  | nil => simp
  | cons ha hl ih =>
    cases i with
    | zero => exact .cons (hf _ _ ha) hl
    | succ i => exact .cons ha (ih i)

theorem forall₂_set {l : List α} {l' : List β} (h : List.Forall₂ R l l') {a : α} {b : β} (hab : R a b)
    (i : Nat) : List.Forall₂ R (l.set i a) (l'.set i b) := by
  induction h generalizing i with
  | nil => exact .nil
  | cons hc hl ih =>
    cases i with
    | zero => exact .cons hab hl
    | succ i => exact .cons hc (ih i)

theorem forall₂_eraseIdx {l : List α} {l' : List β} (h : List.Forall₂ R l l') (i : Nat) :
    List.Forall₂ R (l.eraseIdx i) (l'.eraseIdx i) := by
  induction h generalizing i with
  | nil => exact .nil
  | cons ha hl ih =>
    cases i with
    | zero => exact hl
    | succ i => exact .cons ha (ih i)

theorem forall₂_map_eq {γ : Type} {l : List α} {l' : List β} (h : List.Forall₂ R l l') {f : α → γ} {f' : β → γ}
    (hf : ∀ a b, R a b → f' b = f a) : l'.map f' = l.map f := by
  induction h with
  | nil => rfl
  | cons hab _ ih => rw [List.map_cons, List.map_cons, hf _ _ hab, ih]

section Tests

variable {l : List α} {l' : List β} (h : List.Forall₂ R l l') {f : α → Bool} {f' : β → Bool}
  (hf : ∀ a b, R a b → f' b = f a)
include h hf

theorem forall₂_any : l'.any f' = l.any f := by
  have same := congrArg (List.any · id) (forall₂_map_eq h hf)
  simpa only [List.any_map, Function.id_comp] using same

theorem forall₂_all : l'.all f' = l.all f := by
  have same := congrArg (List.all · id) (forall₂_map_eq h hf)
  simpa only [List.all_map, Function.id_comp] using same

theorem forall₂_findIdx? : l'.findIdx? f' = l.findIdx? f := by
  have same := congrArg (List.findIdx? id) (forall₂_map_eq h hf)
  simpa only [List.findIdx?_map, Function.id_comp] using same

end Tests

theorem forall₂_zip {l m : List α} {l' m' : List β} (hl : List.Forall₂ R l l') (hm : List.Forall₂ R m m') :
    List.Forall₂ (fun x y => R x.1 y.1 ∧ R x.2 y.2) (l.zip m) (l'.zip m') := by
  induction hl generalizing m m' with
  | nil => exact .nil
  | cons ha _ ih =>
    cases hm with
    | nil => exact .nil
    | cons hb hm => exact .cons ⟨ha, hb⟩ (ih hm)

theorem rel_cases {a : Option α} {b : Option β} (h : Option.Rel R a b) :
    (a = none ∧ b = none) ∨ ∃ x y, a = some x ∧ b = some y ∧ R x y := by
  cases h with
  | none => exact .inl ⟨rfl, rfl⟩
  | some hxy => exact .inr ⟨_, _, rfl, rfl, hxy⟩

theorem forall₂_findSome? {γ δ : Type} {Q : γ → δ → Prop} {l : List α} {l' : List β}
    (h : List.Forall₂ R l l') {f : α → Option γ} {f' : β → Option δ}
    (hf : ∀ a b, R a b → Option.Rel Q (f a) (f' b)) : Option.Rel Q (l.findSome? f) (l'.findSome? f') := by
  induction h with
  | nil => exact .none
  | @cons a b l l' hab _ ih =>
    rw [List.findSome?_cons, List.findSome?_cons]
    obtain ⟨ha, hb⟩ | ⟨x, y, ha, hb, hxy⟩ := rel_cases (hf a b hab)
    · rw [ha, hb]
      exact ih
    · rw [ha, hb]
      exact .some hxy

theorem isSome_eq_of_rel {a : Option α} {b : Option β} (h : Option.Rel R a b) : b.isSome = a.isSome := by
  cases h <;> rfl

variable {t : Table α} {t' : Table β}

theorem Table.Paired.insert (h : Table.Paired R t t') (name : String) {a : α} {b : β} (hab : R a b) :
    Table.Paired R (t.insert name a) (t'.insert name b) := by
  intro other
  rw [Table.find?_insert, Table.find?_insert]
  split
  · exact .some hab
  · exact h other

theorem Table.Paired.empty : Table.Paired R ∅ ∅ := fun _ => .none

end Lists

/-! ## What like values have in common -/

section Values

variable {p : Pairing} {v v' : Value}

namespace FunctionObject.Like

variable {f f' : FunctionObject}

theorem name (h : f.Like p f') : f'.name = f.name := h.declaration.name.text

theorem arity (h : f.Like p f') : f'.arity = f.arity := by
  rw [FunctionObject.arity, FunctionObject.arity, h.declaration.params.length_eq]

end FunctionObject.Like

namespace ClassObject.Like

variable {c c' : ClassObject}

theorem name (h : c.Like p c') : c'.name = c.name := h.own.name

theorem id (h : c.Like p c') : c'.id = c.id := h.own.id

theorem layers (h : c.Like p c') : List.Forall₂ (ClassLayer.Like p) c.layers c'.layers := .cons h.own h.ancestors

theorem method? (h : c.Like p c') (name : String) :
    Option.Rel (FunctionObject.Like p) (c.method? name) (c'.method? name) :=
  forall₂_findSome? h.layers fun _ _ hl => hl.methods name

theorem static? (h : c.Like p c') (name : String) :
    Option.Rel (FunctionObject.Like p) (c.static? name) (c'.static? name) :=
  forall₂_findSome? h.layers fun _ _ hl => hl.statics name

end ClassObject.Like

namespace Value.Like

theorem type (h : v.Like p v') : v'.type = v.type := by
  cases h <;> rfl

theorem isTruthy (h : v.Like p v') : v'.isTruthy = v.isTruthy := by
  cases h <;> rfl

theorem fixedType? (h : v.Like p v') : v'.fixedType? = v.fixedType? := by
  cases h <;> rfl

end Value.Like

end Values

/-! ## Frames -/

/-- Both are the same error, or related results. -/
inductive SameError {α β : Type} (R : α → β → Prop) : Except BindingError α → Except BindingError β → Prop where
  | ok {a b} : R a b → SameError R (.ok a) (.ok b)
  | error (e : BindingError) : SameError R (.error e) (.error e)

namespace Bindings.Paired

variable {p : Pairing} {V : Value → Value → Prop} {t t' : Bindings}

theorem find? (h : t.Paired V t') (name : String) :
    Option.Rel (Binding.Paired V) (t.find? name) (t'.find? name) := by
  unfold Bindings.find?
  rw [h.constants, h.types]
  obtain ⟨ha, hb⟩ | ⟨v, v', ha, hb, hv⟩ := rel_cases (h.values name)
  · rw [ha, hb]
    exact .none
  · rw [ha, hb]
    exact .some ⟨hv, rfl, rfl⟩

theorem empty : (∅ : Bindings).Paired V ∅ := ⟨Table.Paired.empty, rfl, rfl⟩

theorem recordType (h : t.Paired V t') (name : String) {v v' : Value} (hv : v.Like p v') :
    t'.recordType name v' = t.recordType name v := by
  unfold Bindings.recordType
  rw [h.types, hv.fixedType?]

theorem bind (h : t.Paired (Value.Like p) t') (name : String) {v v' : Value} (hv : v.Like p v') (constant : Bool) :
    (t.bind name v constant).Paired (Value.Like p) (t'.bind name v' constant) := by
  refine ⟨h.values.insert name hv, ?_, h.recordType name hv⟩
  unfold Bindings.bind
  rw [h.constants]

theorem store (h : t.Paired (Value.Like p) t') (name : String) {v v' : Value} (hv : v.Like p v') :
    (t.store name v).Paired (Value.Like p) (t'.store name v') := by
  have same : t'.contains name = t.contains name := isSome_eq_of_rel (h.values name)
  unfold Bindings.store
  rw [same]
  split
  · exact ⟨h.values.insert name hv, h.constants, h.recordType name hv⟩
  · exact h

end Bindings.Paired

namespace Frames.Paired

variable {p : Pairing} {V : Value → Value → Prop} {fs fs' : Frames}

theorem size (h : fs.Paired V fs') : fs'.size = fs.size := h.length_eq.symm

theorem at? (h : fs.Paired V fs') (f : FrameId) : Option.Rel (Frame.Paired V) fs[f]? fs'[f]? := by
  rw [← Array.getElem?_toList, ← Array.getElem?_toList]
  exact forall₂_getElem? h f

theorem bindingAt? (h : fs.Paired V fs') (f : FrameId) (name : String) :
    Option.Rel (Binding.Paired V) (fs.bindingAt? f name) (fs'.bindingAt? f name) := by
  unfold Frames.bindingAt?
  obtain ⟨ha, hb⟩ | ⟨x, y, ha, hb, hxy⟩ := rel_cases (h.at? f)
  · rw [ha, hb]
    exact .none
  · rw [ha, hb]
    exact hxy.bindings.find? name

theorem enclosing? (h : fs.Paired V fs') (f : FrameId) : fs'.enclosing? f = fs.enclosing? f := by
  unfold Frames.enclosing?
  obtain ⟨ha, hb⟩ | ⟨x, y, ha, hb, hxy⟩ := rel_cases (h.at? f)
  · rw [ha, hb]
  · rw [ha, hb]
    exact hxy.enclosing

theorem ancestor? (h : fs.Paired V fs') (d : Nat) (f : FrameId) : fs'.ancestor? d f = fs.ancestor? d f :=
  ancestor?_congr h.enclosing? d f

theorem holder? (h : fs.Paired V fs') (name : String) (f : FrameId) : fs'.holder? name f = fs.holder? name f :=
  holder?_congr h.enclosing? (fun f => isSome_eq_of_rel (h.bindingAt? f name)) f

theorem defineError? (h : fs.Paired V fs') (f : FrameId) (name : String) :
    fs'.defineError? f name = fs.defineError? f name := by
  rw [Frames.defineError?, Frames.defineError?, isSome_eq_of_rel (h.bindingAt? f name)]

/-! ### Reading and assigning -/

theorem readAt (h : fs.Paired (Value.Like p) fs') (f : FrameId) (name : String) :
    SameError (Value.Like p) (fs.readAt f name) (fs'.readAt f name) := by
  unfold Frames.readAt
  obtain ⟨ha, hb⟩ | ⟨⟨v, constant, type⟩, ⟨v', constant', type'⟩, ha, hb, hxy⟩ := rel_cases (h.bindingAt? f name)
  · rw [ha, hb]
    exact .error _
  · rw [ha, hb]
    have value : v.Like p v' := hxy.value
    cases value with
    | undefined => exact .error _
    | _ => exact .ok hxy.value

theorem storeError? (h : fs.Paired (Value.Like p) fs') (f : FrameId) (name : String) {v v' : Value}
    (hv : v.Like p v') : fs'.storeError? f name v' = fs.storeError? f name v := by
  unfold Frames.storeError?
  obtain ⟨ha, hb⟩ | ⟨b, b', ha, hb, hxy⟩ := rel_cases (h.bindingAt? f name)
  · rw [ha, hb]
  · rw [ha, hb]
    dsimp only
    rw [hxy.constant, hxy.type, hv.fixedType?]

theorem get (h : fs.Paired (Value.Like p) fs') (f : FrameId) (name : String) :
    SameError (Value.Like p) (fs.get f name) (fs'.get f name) := by
  unfold Frames.get
  rw [h.holder? name f]
  cases fs.holder? name f with
  | none => exact .error _
  | some g => exact h.readAt g name

theorem getAt (h : fs.Paired (Value.Like p) fs') (f : FrameId) (d : Nat) (name : String) :
    SameError (Value.Like p) (fs.getAt f d name) (fs'.getAt f d name) := by
  unfold Frames.getAt Frames.ancestor
  rw [h.ancestor? d f]
  cases fs.ancestor? d f with
  | none => exact .error _
  | some g => exact h.readAt g name

theorem assignTarget (h : fs.Paired (Value.Like p) fs') (f : FrameId) (name : String) {v v' : Value}
    (hv : v.Like p v') : fs'.assignTarget f name v' = fs.assignTarget f name v := by
  unfold Frames.assignTarget
  rw [h.holder? name f]
  cases fs.holder? name f with
  | none => rfl
  | some g =>
    dsimp only
    rw [h.storeError? g name hv]

theorem assignTargetAt (h : fs.Paired (Value.Like p) fs') (f : FrameId) (d : Nat) (name : String) {v v' : Value}
    (hv : v.Like p v') : fs'.assignTargetAt f d name v' = fs.assignTargetAt f d name v := by
  unfold Frames.assignTargetAt Frames.ancestor
  rw [h.ancestor? d f]
  cases fs.ancestor? d f with
  | none => rfl
  | some g =>
    dsimp only
    rw [h.storeError? g name hv]

/-! ### Changes -/

theorem child (h : fs.Paired V fs') (enclosing : FrameId) : (fs.child enclosing).Paired V (fs'.child enclosing) := by
  unfold Frames.Paired Frames.child
  rw [Array.toList_push, Array.toList_push]
  exact List.rel_append h (.cons ⟨Bindings.Paired.empty, rfl⟩ .nil)

theorem update (h : fs.Paired V fs') (f : FrameId) {change change' : Bindings → Bindings}
    (hc : ∀ t t', t.Paired V t' → (change t).Paired V (change' t')) :
    (fs.update f change).Paired V (fs'.update f change') := by
  unfold Frames.Paired Frames.update
  rw [Array.toList_modify, Array.toList_modify]
  apply forall₂_modify h
  intro a b hf
  exact ⟨hc _ _ hf.bindings, hf.enclosing⟩

theorem bind (h : fs.Paired (Value.Like p) fs') (f : FrameId) (name : String) {v v' : Value} (hv : v.Like p v')
    (constant : Bool) : (fs.bind f name v constant).Paired (Value.Like p) (fs'.bind f name v' constant) :=
  h.update f fun _ _ ht => ht.bind name hv constant

theorem store (h : fs.Paired (Value.Like p) fs') (f : FrameId) (name : String) {v v' : Value} (hv : v.Like p v') :
    (fs.store f name v).Paired (Value.Like p) (fs'.store f name v') :=
  h.update f fun _ _ ht => ht.store name hv

end Frames.Paired

/-! ## Collections and instances -/

namespace Store.Paired

variable {p : Pairing} {V : Value → Value → Prop} {s s' : Store}

theorem elements (h : s.Paired V s') (storage : StorageId) :
    List.Forall₂ V (s.elements storage).toList (s'.elements storage).toList := by
  have found := forall₂_getElem? h.collections storage
  rw [Array.getElem?_toList, Array.getElem?_toList] at found
  unfold Store.elements
  rw [Array.getD_eq_getD_getElem?, Array.getD_eq_getD_getElem?]
  obtain ⟨ha, hb⟩ | ⟨x, y, ha, hb, hxy⟩ := rel_cases found
  · rw [ha, hb]
    exact .nil
  · rw [ha, hb]
    exact hxy

theorem field? (h : s.Paired V s') (id : InstanceId) (name : String) :
    Option.Rel V (s.field? id name) (s'.field? id name) := by
  have found := forall₂_getElem? h.instances id
  rw [Array.getElem?_toList, Array.getElem?_toList] at found
  unfold Store.field?
  obtain ⟨ha, hb⟩ | ⟨x, y, ha, hb, hxy⟩ := rel_cases found
  · rw [ha, hb]
    exact .none
  · rw [ha, hb]
    exact hxy name

theorem allocate (h : s.Paired V s') {vs vs' : Array Value} (hv : Elements.Paired V vs vs') :
    (s.allocate vs).2.Paired V (s'.allocate vs').2 := by
  have collections : List.Forall₂ (Elements.Paired V) (s.collections.push vs).toList
      (s'.collections.push vs').toList := by
    rw [Array.toList_push, Array.toList_push]
    exact List.rel_append h.collections (.cons hv .nil)
  exact { h with collections }

theorem updateElements (h : s.Paired V s') (storage : StorageId) {change change' : Array Value → Array Value}
    (hc : ∀ vs vs', Elements.Paired V vs vs' → Elements.Paired V (change vs) (change' vs')) :
    (s.updateElements storage change).Paired V (s'.updateElements storage change') := by
  have collections : List.Forall₂ (Elements.Paired V) (s.collections.modify storage change).toList
      (s'.collections.modify storage change').toList := by
    rw [Array.toList_modify, Array.toList_modify]
    exact forall₂_modify h.collections hc storage
  exact { h with collections }

theorem newInstance (h : s.Paired V s') : s.newInstance.2.Paired V s'.newInstance.2 := by
  have instances : List.Forall₂ (Table.Paired V) (s.instances.push ∅).toList (s'.instances.push ∅).toList := by
    rw [Array.toList_push, Array.toList_push]
    exact List.rel_append h.instances (.cons Table.Paired.empty .nil)
  exact { h with instances }

theorem setField (h : s.Paired V s') (id : InstanceId) (name : String) {v v' : Value} (hv : V v v') :
    (s.setField id name v).Paired V (s'.setField id name v') := by
  have instances : List.Forall₂ (Table.Paired V) (s.instances.modify id (·.insert name v)).toList
      (s'.instances.modify id (·.insert name v')).toList := by
    rw [Array.toList_modify, Array.toList_modify]
    exact forall₂_modify h.instances (fun _ _ ht => ht.insert name hv) id
  exact { h with instances }

theorem updateFrames (h : s.Paired V s') {change change' : Frames → Frames}
    (hc : (change s.frames).Paired V (change' s'.frames)) :
    (s.updateFrames change).Paired V (s'.updateFrames change') := { h with frames := hc }

theorem newFrame (h : s.Paired V s') (enclosing : FrameId) :
    (s.newFrame enclosing).2.Paired V (s'.newFrame enclosing).2 := { h with frames := h.frames.child enclosing }

theorem freshIdentity (h : s.Paired V s') : s.freshIdentity.2.Paired V s'.freshIdentity.2 :=
  { h with nextIdentity := congrArg (· + 1) h.nextIdentity }

end Store.Paired

/-! ## Equality and texts -/

namespace Store.Paired

variable {p : Pairing} {s s' : Store} {v v' w w' : Value}

section Parts

variable {equal equal' : Value → Value → Bool}
  (he : ∀ {v v' w w'}, Value.Like p v v' → Value.Like p w w' → equal' v' w' = equal v w)

include he

theorem equalWith (h : s.Like p s') (hv : v.Like p v') (hw : w.Like p w') :
    s'.equalWith equal' v' w' = s.equalWith equal v w := by
  cases hv with
  | function hf =>
    cases hw with
    | function hg => rw [Store.equalWith, Store.equalWith, hf.id, hg.id]
    | _ => rfl
  | classObject hc =>
    cases hw with
    | classObject hd => rw [Store.equalWith, Store.equalWith, hc.id, hd.id]
    | _ => rfl
  | collection kind a =>
    cases hw with
    | collection kind' b =>
      have xs := h.elements a
      have ys := h.elements b
      unfold Store.equalWith
      dsimp only
      rw [xs.length_eq, ys.length_eq]
      apply congrArg (kind == kind' && ·)
      apply congrArg (a == b || ·)
      apply congrArg (_ && ·)
      cases kind with
      | set => exact forall₂_all xs fun _ _ hx => forall₂_any ys fun _ _ hy => he hy hx
      | array | list => exact forall₂_all (forall₂_zip xs ys) fun _ _ hxy => he hxy.1 hxy.2
    | _ => rfl
  | _ => cases hw <;> rfl

end Parts

theorem equalUpTo (h : s.Like p s') (depth : Nat) (hv : v.Like p v') (hw : w.Like p w') :
    s'.equalUpTo depth v' w' = s.equalUpTo depth v w := by
  induction depth generalizing v v' w w' with
  | zero => exact equalWith (fun _ _ => rfl) h hv hw
  | succ n ih => exact equalWith ih h hv hw

theorem equal (h : s.Like p s') (hv : v.Like p v') (hw : w.Like p w') : s'.equal v' w' = s.equal v w := by
  have depth : s'.collections.size = s.collections.size := h.collections.length_eq.symm
  rw [Store.equal, Store.equal, depth]
  exact h.equalUpTo _ hv hw

theorem holds (h : s.Like p s') {vs vs' : List Value} (hvs : List.Forall₂ (Value.Like p) vs vs')
    (hw : w.Like p w') : s'.holds vs' w' = s.holds vs w :=
  forall₂_any hvs fun _ _ hv => h.equal hv hw

theorem distinct (h : s.Like p s') {vs vs' : List Value} (hvs : List.Forall₂ (Value.Like p) vs vs') :
    List.Forall₂ (Value.Like p) (s.distinct vs) (s'.distinct vs') := by
  apply List.rel_foldl (P := List.Forall₂ (Value.Like p)) (R := Value.Like p) ?_ .nil hvs
  intro kept kept' hk v v' hv
  dsimp only
  rw [h.holds hk hv]
  split
  · exact hk
  · exact List.rel_append hk (.cons hv .nil)

theorem textWith (h : s.Like p s') {text text' : Value → String}
    (ht : ∀ {v v'}, Value.Like p v v' → text' v' = text v) (hv : v.Like p v') :
    s'.textWith text' v' = s.textWith text v := by
  cases hv with
  | function hf => rw [Store.textWith, Store.textWith, hf.name]
  | classObject hc => rw [Store.textWith, Store.textWith, hc.name]
  | object id hc => rw [Store.textWith, Store.textWith, hc.name]
  | collection kind storage =>
    have parts := forall₂_map_eq (h.elements storage) fun _ _ hv => ht hv
    simp only [Store.textWith, parts]
  | _ => rfl

theorem textUpTo (h : s.Like p s') (depth : Nat) (hv : v.Like p v') :
    s'.textUpTo depth v' = s.textUpTo depth v := by
  induction depth generalizing v v' with
  | zero => exact textWith h (fun _ => rfl) hv
  | succ n ih => exact textWith h ih hv

theorem text (h : s.Like p s') (hv : v.Like p v') : s'.text v' = s.text v := by
  have depth : s'.collections.size = s.collections.size := h.collections.length_eq.symm
  rw [Store.text, Store.text, depth]
  exact h.textUpTo _ hv

theorem bindMethod (h : s.Like p s') {f f' : FunctionObject} (hf : f.Like p f') (id : InstanceId)
    {c c' : ClassObject} (hc : c.Like p c') (name : String) :
    (s.bindMethod f id c name).1.Like p (s'.bindMethod f' id c' name).1 ∧
      (s.bindMethod f id c name).2.Like p (s'.bindMethod f' id c' name).2 := by
  have size := h.frames.size
  have opened := h.newFrame f.frame
  have bound := opened.frames.bind s.frames.size name (.object id hc) true
  unfold Store.bindMethod
  rw [hf.frame]
  constructor
  · exact ⟨h.nextIdentity, hf.declaration, size, hf.isInitializer⟩
  · rw [Store.newFrame, Store.newFrame, size]
    exact (opened.updateFrames bound).freshIdentity

end Store.Paired

end Scriptlet
