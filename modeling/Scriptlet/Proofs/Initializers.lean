import Scriptlet.Proofs.Receivers
import Scriptlet.Proofs.TrackedRules

/-!
# Initializers yield their instance

A method as its class holds it is never a value of a program: reading it from an instance or from a superclass binds a
copy with an identity of its own to the instance. So the frame of every initializer that a program can call binds
`this`, once and for all. A call of it yields the instance, whatever its body returns. A call of a class yields a new
instance of this very class, whichever class its initializer comes from.

The proof keeps book of what each identity belongs to.
-/
namespace Scriptlet

/-! ## Roles of identities -/

/-- What an identity belongs to. -/
inductive Role where
  /-- A method as its class holds it. -/
  | method
  /-- A method that is bound to an instance, in the given frame. -/
  | bound (frame : FrameId) (id : InstanceId) (class_ : ClassObject)
  | other

/-- The function can be a value if it has this role. -/
def Role.Admits (f : FunctionObject) : Role → Prop
  | .method => False
  | .bound frame _ _ => f.frame = frame
  | .other => f.isInitializer = false

/-- The roles of all identities that were given out, and the number of instances. -/
structure Roles where
  identities : List Role
  instances : Nat

namespace Roles

def le (r r' : Roles) : Prop := r.identities <+: r'.identities ∧ r.instances ≤ r'.instances

def Method (r : Roles) (f : FunctionObject) : Prop := r.identities[f.id]? = some .method

def Function (r : Roles) (f : FunctionObject) : Prop := ∃ role, r.identities[f.id]? = some role ∧ role.Admits f

/-- Methods have the role of methods, static methods are functions like any other. -/
def Class (r : Roles) (c : ClassObject) : Prop :=
  ∀ layer ∈ c.layers, ∀ name f, (layer.methods.find? name = some f → r.Method f) ∧
    (layer.statics.find? name = some f → r.Function f)

def Value (r : Roles) : Scriptlet.Value → Prop
  | .function f => r.Function f
  | .classObject c => r.Class c
  | .object id c => id < r.instances ∧ r.Class c
  | _ => True

/-- The next identity gets a role. -/
def add (r : Roles) (role : Role) : Roles := { r with identities := r.identities ++ [role] }

/-- There is one more instance. -/
def grow (r : Roles) : Roles := { r with instances := r.instances + 1 }

variable {r r' r'' : Roles} {f : FunctionObject}

theorem le_refl (r : Roles) : r.le r := ⟨List.prefix_rfl, Nat.le_refl _⟩

theorem le_trans (h : r.le r') (h' : r'.le r'') : r.le r'' := ⟨h.1.trans h'.1, Nat.le_trans h.2 h'.2⟩

theorem le_add (r : Roles) (role : Role) : r.le (r.add role) := ⟨List.prefix_append .., Nat.le_refl _⟩

theorem le_grow (r : Roles) : r.le r.grow := ⟨List.prefix_rfl, Nat.le_succ _⟩

theorem getElem?_mono (h : r.le r') {i : Identity} {role : Role} (there : r.identities[i]? = some role) :
    r'.identities[i]? = some role := by
  obtain ⟨later, same⟩ := h.1
  have inside := (List.getElem?_eq_some_iff.1 there).1
  rw [← same, List.getElem?_append_left inside, there]

theorem Method.mono (h : r.le r') (hf : r.Method f) : r'.Method f := getElem?_mono h hf

theorem Function.mono (h : r.le r') (hf : r.Function f) : r'.Function f := by
  obtain ⟨role, there, admits⟩ := hf
  exact ⟨role, getElem?_mono h there, admits⟩

theorem Class.mono {c : ClassObject} (h : r.le r') (hc : r.Class c) : r'.Class c := by
  intro layer hl name f
  obtain ⟨methods, statics⟩ := hc layer hl name f
  exact ⟨fun hf => (methods hf).mono h, fun hf => (statics hf).mono h⟩

theorem Value.mono {v : Scriptlet.Value} (h : r.le r') (hv : r.Value v) : r'.Value v := by
  cases v with
  | function f => exact Function.mono h hv
  | classObject c => exact Class.mono h hv
  | object id c => exact ⟨Nat.lt_of_lt_of_le hv.1 h.2, hv.2.mono h⟩
  | _ => trivial

/-- A method as its class holds it and a function value never share an identity. -/
theorem Method.id_ne {method : FunctionObject} (hm : r.Method method) (hf : r.Function f) : method.id ≠ f.id := by
  intro same
  obtain ⟨role, there, admits⟩ := hf
  rw [← same, hm] at there
  cases there
  exact admits

end Roles

/-! ## Stores in which everything has its role -/

/-- All identities and instances are counted, bound methods are bound, and values have their roles. -/
structure Store.Plays (s : Store) (r : Roles) : Prop where
  identities : r.identities.length = s.nextIdentity
  instances : r.instances = s.instances.size
  receivers {frame : FrameId} {id : InstanceId} {c : ClassObject} : .bound frame id c ∈ r.identities →
    s.frames.Fixes frame thisName (.object id c)
  values : s.All r.Value

namespace Store.Plays

variable {s : Store} {r : Roles}

/-- Constants of frames last, and so do receivers. -/
theorem changeFrames (h : s.Plays r) {fs : Frames} (last : s.frames.Last fs)
    (values : Store.All r.Value { s with frames := fs }) : Store.Plays { s with frames := fs } r :=
  ⟨h.identities, h.instances, fun there => (h.receivers there).last last, values⟩

theorem freshIdentity (h : s.Plays r) {role : Role}
    (receiver : ∀ frame id c, role = .bound frame id c → s.frames.Fixes frame thisName (.object id c)) :
    s.freshIdentity.2.Plays (r.add role) where
  identities := by simp [Roles.add, Store.freshIdentity, h.identities]
  instances := h.instances
  receivers {frame id c} there := by
    rcases List.mem_append.1 there with old | new
    · exact h.receivers old
    · exact receiver frame id c (List.mem_singleton.1 new).symm
  values := by
    have values := h.values.mono fun v hv => hv.mono (r.le_add role)
    exact ⟨values.bindings, values.elements, values.fields⟩

/-- The role of the newest identity. -/
theorem getElem?_add (h : s.Plays r) (role : Role) : (r.add role).identities[s.nextIdentity]? = some role := by
  simp [Roles.add, ← h.identities]

theorem newInstance (h : s.Plays r) : s.newInstance.2.Plays r.grow where
  identities := h.identities
  instances := by simp [Store.newInstance, Roles.grow, h.instances]
  receivers there := h.receivers there
  values := h.values.newInstance.mono fun v hv => hv.mono r.le_grow

/-- A bound initializer is bound for good. -/
theorem receiver (h : s.Plays r) {f : FunctionObject} (hf : r.Function f) (initializes : f.isInitializer = true) :
    ∃ id c, r.identities[f.id]? = some (.bound f.frame id c) ∧ s.frames.Fixes f.frame thisName (.object id c) := by
  obtain ⟨role, there, admits⟩ := hf
  cases role with
  | method => cases admits
  | bound frame id c =>
    cases admits
    exact ⟨id, c, there, h.receivers (List.mem_of_getElem? there)⟩
  | other => cases initializes.symm.trans admits

end Store.Plays

/-! ## Tracking roles -/

/-- Everything has its role, and the notes of the observer are in order. -/
def callRoles {ν : Type} (noted : Roles → ν → Prop) : Tracking ν where
  Ghost := Roles
  le := Roles.le
  value := Roles.Value
  method := Roles.Method
  receiver _ _ _ := True
  state r s n := s.Plays r ∧ noted r n
  vacant _ _ _ := True
  refl := Roles.le_refl
  trans := Roles.le_trans
  mono := Roles.Value.mono
  methodMono := Roles.Method.mono

/-- The notes stay in order when roles are added and when something is told. -/
structure Noting {ν : Type} (noted : Roles → ν → Prop) (o : Observer ν) : Prop where
  mono {r r' : Roles} {n : ν} : r.le r' → noted r n → noted r' n
  tell {r : Roles} {m : Machine} {n : ν} (event : Event) : m.store.Plays r → noted r n → noted r (o ⟨event, m⟩ n)

section Lawful

variable {ν : Type} {noted : Roles → ν → Prop} {o : Observer ν} {r r' : Roles} {s s' : Store} {n : ν}

theorem callRoles_next (h : (callRoles noted).state r s n) (h' : s'.Plays r) : (callRoles noted).Next r s' n :=
  .here ⟨h', h.2⟩

variable (hn : Noting noted o)
include hn

theorem callRoles_data : (callRoles noted).LawfulData where
  null _ := trivial
  bool _ _ := trivial
  number _ _ := trivial
  string _ _ := trivial
  file _ _ := trivial
  native _ := trivial
  receiver _ := trivial
  elements id h v hv := by
    obtain ⟨elements, he, hv⟩ := Store.mem_elements hv
    exact h.1.values.elements elements he v hv
  identity {r _ _} h :=
    ⟨r.add .other, r.le_add .other, h.1.freshIdentity fun _ _ _ never => (nomatch never), hn.mono (r.le_add .other) h.2⟩
  allocate {r _ _} kind {_} h hv _ :=
    ⟨r, r.le_refl, ⟨⟨h.1.identities, h.1.instances, h.1.receivers, h.1.values.allocate hv⟩, h.2⟩, trivial⟩
  change h _ hv _ _ :=
    callRoles_next h ⟨h.1.identities, h.1.instances, h.1.receivers, h.1.values.updateElements hv⟩

theorem callRoles_store : (callRoles noted).LawfulStore o where
  toLawfulData := callRoles_data hn
  called _ _ := trivial
  binding h hb _ := h.1.values.bindings _ _ _ hb
  field h hv := h.1.values.fields _ _ _ hv
  tell event h := ⟨h.1, hn.tell event h.1 h.2⟩
  told _ _ _ := trivial
  child f h := callRoles_next h (h.1.changeFrames (Frames.last_child _ f) (h.1.values.child f))
  bind constant h unbound hv := callRoles_next h
    (h.1.changeFrames (Frames.last_bind unbound _ constant) (h.1.values.bind hv _ _ constant))
  bindMissing h unbound _ := callRoles_next h
    (h.1.changeFrames (Frames.last_bind unbound _ false) (h.1.values.bind (v := .undefined) trivial _ _ false))
  store h fits hv := callRoles_next h (h.1.changeFrames (Frames.last_store fits) (h.1.values.store hv _ _))
  setField id name h hv := callRoles_next h
    ⟨h.1.identities, by simpa [Store.setField] using h.1.instances, h.1.receivers, h.1.values.setField hv id name⟩

/-- A function or a method that was just made has the role that was meant for it. -/
theorem callRoles_identity (h : (callRoles noted).state r s n) (role : Role)
    (receiver : ∀ frame id c, role = .bound frame id c → s.frames.Fixes frame thisName (.object id c)) :
    ∃ r', r.le r' ∧ (callRoles noted).state r' s.freshIdentity.2 n ∧ r'.identities[s.nextIdentity]? = some role :=
  ⟨r.add role, r.le_add role, ⟨h.1.freshIdentity receiver, hn.mono (r.le_add role) h.2⟩, h.1.getElem?_add role⟩

theorem callRoles_bindMethod (h : (callRoles noted).state r s n) {f : FunctionObject} {id : InstanceId}
    {c : ClassObject} (ho : r.Value (.object id c)) :
    ∃ r', r.le r' ∧ (callRoles noted).state r' (s.bindMethod f id c thisName).2 n ∧
      r'.Function (s.bindMethod f id c thisName).1 := by
  obtain ⟨r₁, le₁, state⟩ := (callRoles_store hn).bindNew (v := .object id c) h ho f.frame thisName
  obtain ⟨r₂, le₂, state, role⟩ := callRoles_identity hn state (.bound s.frames.size id c) fun _ _ _ same => by
    cases same
    exact ⟨_, s.frames.bindingAt?_bind_new f.frame thisName (.object id c) true, rfl, rfl⟩
  exact ⟨r₂, Roles.le_trans le₁ le₂, state, _, role, rfl⟩

theorem callRoles_lawful : (callRoles noted).Lawful Regime.free.declaration o where
  toLawfulStore := callRoles_store hn
  function _ := trivial
  classObject := .rfl
  object h := h.2
  newFunction frame h _ := by
    obtain ⟨r', le, state, role⟩ := callRoles_identity hn h .other fun _ _ _ never => nomatch never
    exact ⟨r', le, state, _, role, rfl⟩
  newMethod frame _ h _ := by
    obtain ⟨r', le, state, role⟩ := callRoles_identity hn h .method fun _ _ _ never => nomatch never
    exact ⟨r', le, state, role⟩
  bindMethod h _ ho := callRoles_bindMethod hn h ho
  newInstance {r s n c} h hc := by
    refine ⟨r.grow, r.le_grow, ⟨h.1.newInstance, hn.mono r.le_grow h.2⟩, ?_, hc.mono r.le_grow⟩
    simp [Roles.grow, h.1.instances]

end Lawful

/-! ## Calls -/

namespace Inner

variable {ν : Type} {inner : Inner ν} {w : Machine × ν}

/-- The number of arguments is checked, and nothing changes. -/
theorem checkCount_bind {α : Type} (line : Nat) {arity : Arity} {args : List Value} {x y : Watched ν α}
    (same : x w = y w) :
    (do Eval.checkCount line arity args; x : Watched ν α) w =
      (do Eval.checkCount line arity args; y : Watched ν α) w := by
  unfold Eval.checkCount
  cases arity.accepts args.length with
  | true => exact same
  | false => rfl

/-- The body is run for what it does; the value of the call is the instance. -/
theorem callFunction_initializer {noted : Roles → ν → Prop} (h : inner.Tracked (callRoles noted) .free) {r : Roles}
    (hs : (callRoles noted).state r w.1.store w.2) {f : FunctionObject} (initializes : f.isInitializer = true)
    {id : InstanceId} {c : ClassObject} (role : r.identities[f.id]? = some (.bound f.frame id c)) {args : List Value}
    (hv : ∀ v ∈ args, r.Value v) :
    inner.callFunction f args w = (do let _ ← inner.runBody f args; return .object id c : Watched ν Value) w := by
  have body := h.runBody hs (f := f) (fun _ _ _ _ => trivial) hv
  cases ends : inner.runBody f args w with
  | error halt w' => rw [callFunction, bind_of_error ends, bind_of_error ends]
  | ok flow w' =>
    obtain ⟨r', after, -⟩ := Meets.of_ok body ends
    have fixed := after.state.1.receivers (List.mem_of_getElem? (Roles.getElem?_mono after.le role))
    have read : w'.1.store.frames.getAt f.frame 0 thisName = .ok (.object id c) := fixed.getAt nofun rfl
    rw [callFunction, bind_of_ok ends, bind_of_ok ends, if_pos initializes]
    refine (bind_of_ok rfl).trans ?_
    rw [read]
    rfl

/-- A class makes the next instance, and yields it whatever its initializer does. -/
theorem meets_callClass (inner : Inner ν) (c : ClassObject) (line : Nat) (args : List Value) (w : Machine × ν) :
    Meets (inner.callValue (.classObject c) line args) w
      (fun result _ => result = .object w.1.store.instances.size c) fun _ _ => True := by
  unfold callValue
  refine Meets.bind (Q := fun _ w' => w' = w) ?_ ?_
  · refine Watched.meets_unseen (Meets.mono (Eval.Reads.checkCount line c.arity args) ?_ fun _ _ _ => trivial)
    rintro _ m ⟨rfl, -⟩
    rfl
  · rintro _ w rfl
    refine Meets.bind (Q := fun id _ => id = w.1.store.instances.size) rfl ?_
    rintro _ w' rfl
    split
    · exact Meets.after (fun _ => Meets.after fun _ _ => .pure rfl) w'
    · rfl

end Inner

/-! ## Sessions -/

/-- Each machine in the notes had its roles by then. -/
def Roles.Seen (r : Roles) (seen : List Visit) : Prop :=
  ∀ v ∈ seen, ∃ older : Roles, older.le r ∧ v.machine.store.Plays older

theorem noting_seen : Noting Roles.Seen .recorder where
  mono le h v hv := by
    obtain ⟨older, before, plays⟩ := h v hv
    exact ⟨older, Roles.le_trans before le, plays⟩
  tell {r m n} event plays h v hv := by
    rcases List.mem_cons.1 hv with rfl | hv
    · exact ⟨r, r.le_refl, plays⟩
    · exact h v hv

/-- On a new machine, there are no instances, and identities for native functions only. At each moment of a session
everything has its role. -/
theorem Session.plays_after (settings : Settings) (sink : Sink) (files : FileTree) (clock fuel : Nat)
    (items : List Item) :
    ∃ r, (after fuel items (.initial (.initial settings sink files clock))).machine.store.Plays r ∧
      r.Seen (visits fuel items (.initial (.initial settings sink files clock)) []) := by
  have lawful := callRoles_lawful noting_seen
  have first : (callRoles Roles.Seen).state ⟨[], 0⟩ ⟨#[⟨∅, none⟩], #[], #[], 0⟩ [] :=
    ⟨⟨rfl, rfl, fun there => (nomatch there), .first _⟩, fun _ hv => nomatch hv⟩
  have initial : (callRoles Roles.Seen).Next ⟨[], 0⟩
      (Session.initial (.initial settings sink files clock)).machine.store [] := lawful.initial first
  obtain ⟨r, -, plays, seen⟩ := initial.step fun _ _ start => tracked_after lawful start fuel items
  exact ⟨r, plays, seen⟩

/-! ## Runs from a machine in which everything has its role -/

/-- There are no notes. -/
def Roles.Unseen (_ : Roles) (_ : Unit) : Prop := True

theorem callRoles_unseen : (callRoles Roles.Unseen).Lawful Regime.free.declaration .silent :=
  callRoles_lawful ⟨fun _ _ => trivial, fun _ _ _ => trivial⟩

theorem Watched.eq_ok_of_unwatched {α : Type} {x : Watched Unit α} {m m' : Machine} {a : α}
    (ends : x.unwatched m = .ok a m') : x (m, ()) = .ok a (m', ()) := by
  rw [unwatched_eq] at ends
  cases result : x (m, ()) with
  | ok b w =>
    rw [result] at ends
    cases ends
    rfl
  | error halt w =>
    rw [result] at ends
    cases ends

namespace Store.Plays

variable {m m' : Machine} {r : Roles} (h : m.store.Plays r) {fuel : Nat}

theorem ends {α : Type} {x : Watched Unit α} {R : Roles → α → Prop} {a : α}
    (hx : (callRoles Roles.Unseen).Keeps .free r (m, ()) x R) (ends : x.unwatched m = .ok a m') :
    ∃ r', r.le r' ∧ m'.store.Plays r' ∧ R r' a := by
  obtain ⟨r', after, hr⟩ := Meets.of_ok hx (Watched.eq_ok_of_unwatched ends)
  exact ⟨r', after.le, after.state.1, hr⟩

include h

theorem evaluate {e : Expr} {v : Value} (ends : Scriptlet.evaluate fuel e m = .ok v m') :
    ∃ r', r.le r' ∧ m'.store.Plays r' ∧ r'.Value v :=
  Plays.ends (callRoles_unseen.watchExpr (w := (m, ())) ⟨h, trivial⟩ trivial) ends

theorem evaluateAll {es : List Expr} {vs : List Value}
    (ends : ((innerAt .silent fuel).evaluateAll es).unwatched m = .ok vs m') :
    ∃ r', r.le r' ∧ m'.store.Plays r' ∧ ∀ v ∈ vs, r'.Value v :=
  Plays.ends ((callRoles_unseen.tracked fuel).evaluateAll (w := (m, ())) ⟨h, trivial⟩ fun _ _ => trivial) ends

theorem callValue {callee v : Value} (hc : r.Value callee) {args : List Value} (hv : ∀ v ∈ args, r.Value v) {line : Nat}
    (ends : Scriptlet.callValue fuel callee line args m = .ok v m') :
    ∃ r', r.le r' ∧ m'.store.Plays r' ∧ r'.Value v := by
  have tracked := callRoles_unseen.tracked (G := .free) fuel
  exact Plays.ends (tracked.callValue (w := (m, ())) ⟨h, trivial⟩ hc line hv fun _ _ _ _ _ _ => trivial) ends

end Store.Plays

/-- A call evaluates the callee, then the arguments, and then calls. -/
theorem evaluate_call {fuel line : Nat} {callee : Expr} {args : List Expr} {m m₁ m₂ : Machine} {value : Value}
    {values : List Value} (hc : evaluate fuel callee m = .ok value m₁)
    (ha : ((innerAt .silent fuel).evaluateAll args).unwatched m₁ = .ok values m₂) :
    evaluate (fuel + 1) (.call callee line args) m = callValue fuel value line values m₂ := by
  rw [evaluate, callValue, Watched.unwatched_eq, Watched.unwatched_eq]
  refine congrArg Watched.outcome ?_
  refine (bind_of_ok rfl).trans ?_
  refine (bind_of_ok (Watched.eq_ok_of_unwatched hc)).trans ?_
  exact bind_of_ok (Watched.eq_ok_of_unwatched ha)

/-! ## What programs can hold and call -/

/-- The value is kept in a binding, in a collection or in a field. -/
inductive Store.Holds (s : Store) : Value → Prop where
  | binding {f : FrameId} {name : String} {b : Binding} : s.frames.bindingAt? f name = some b → Holds s b.value
  | element {elements : Array Value} {v : Value} : elements ∈ s.collections → v ∈ elements → Holds s v
  | field {id : InstanceId} {name : String} {v : Value} : s.field? id name = some v → Holds s v

theorem Store.All.of_holds {s : Store} {Q : Value → Prop} (h : s.All Q) {v : Value} (hv : s.Holds v) : Q v := by
  cases hv with
  | binding hb => exact h.bindings _ _ _ hb
  | element he hv => exact h.elements _ he _ hv
  | field hv => exact h.fields _ _ _ hv

/-- The class has the method, itself or from a class that it inherits from. -/
def ClassObject.Lists (c : ClassObject) (method : FunctionObject) : Prop :=
  ∃ layer ∈ c.layers, ∃ name, layer.methods.find? name = some method

/-- The class is kept somewhere, or an instance of it is. -/
def Store.Knows (s : Store) (c : ClassObject) : Prop := s.Holds (.classObject c) ∨ ∃ id, s.Holds (.object id c)

/-- The function is not a method as a class has it. If it is an initializer, then its frame binds `this` to an instance
for good. -/
structure Store.Callable (s : Store) (f : FunctionObject) : Prop where
  apart {c : ClassObject} {method : FunctionObject} : s.Knows c → c.Lists method → method.id ≠ f.id
  receiver : f.isInitializer = true → ∃ id c, s.frames.Fixes f.frame thisName (.object id c)

theorem Store.Plays.callable {s : Store} {r : Roles} (h : s.Plays r) {f : FunctionObject} (hf : r.Function f) :
    s.Callable f where
  apart {c method} known listed := by
    have allowed : r.Class c := by
      rcases known with held | ⟨id, held⟩
      · exact h.values.of_holds held
      · exact (h.values.of_holds held).2
    obtain ⟨layer, hl, name, hm⟩ := listed
    exact ((allowed layer hl name method).1 hm).id_ne hf
  receiver initializes := by
    obtain ⟨id, c, -, fixed⟩ := h.receiver hf initializes
    exact ⟨id, c, fixed⟩

namespace Store.Plays

variable {m m' : Machine} {r : Roles} {fuel : Nat} (h : m.store.Plays r) {args : List Value}
  (hv : ∀ v ∈ args, r.Value v)
include h hv

/-- The body of an initializer is run for what it does, and the instance comes out. -/
theorem callValue_initializer {f : FunctionObject} (hf : r.Function f) (initializes : f.isInitializer = true) :
    ∃ id c, m.store.frames.Fixes f.frame thisName (.object id c) ∧
      ∀ line, Scriptlet.callValue fuel (.function f) line args m =
        (do
          Eval.checkCount line f.arity args
          let _ ← (innerAt .silent fuel).runBody f args
          return .object id c : Watched Unit Value).unwatched m := by
  obtain ⟨id, c, role, fixed⟩ := h.receiver hf initializes
  refine ⟨id, c, fixed, fun line => ?_⟩
  rw [Scriptlet.callValue, Watched.unwatched_eq, Watched.unwatched_eq]
  have tracked := callRoles_unseen.tracked (G := .free) fuel
  have yields := Inner.callFunction_initializer (w := (m, ())) tracked ⟨h, trivial⟩ initializes role hv
  exact congrArg Watched.outcome (Inner.checkCount_bind line yields)

/-- The instance that a class makes has a number that no older one has. -/
theorem callValue_classObject {c : ClassObject} (hc : r.Class c) {line : Nat} {result : Value}
    (ends : Scriptlet.callValue fuel (.classObject c) line args m = .ok result m') :
    result = .object m.store.instances.size c ∧ m.store.instances.size < m'.store.instances.size ∧
      ∀ c', ¬m.store.Holds (.object m.store.instances.size c') := by
  have allowed : r.Value (.classObject c) := hc
  obtain ⟨r', -, plays, made⟩ := h.callValue allowed hv ends
  obtain rfl := ((innerAt .silent fuel).meets_callClass c line args (m, ())).of_ok (Watched.eq_ok_of_unwatched ends)
  refine ⟨rfl, plays.instances ▸ made.1, fun c' held => ?_⟩
  have older := (h.values.of_holds held).1
  rw [h.instances] at older
  exact Nat.lt_irrefl _ older

end Store.Plays

/-- At every moment of a session on a new machine, and at its end: functions that are kept anywhere, and functions that
an expression yields, are not methods as a class has them, and the frame of an initializer among them binds `this` to
an instance for good. A call of an initializer runs its body and yields this instance, however the body ends, unless it
fails. A call of a class yields an instance of this class that nothing in the store was before. -/
theorem initializers_yield_their_instance (settings : Settings) (sink : Sink) (files : FileTree) (clock fuel : Nat)
    (items : List Session.Item) :
    let start := Session.initial (.initial settings sink files clock)
    let last := (Session.after fuel items start).machine
    ∀ m, m = last ∨ (∃ v ∈ Session.visits fuel items start [], v.machine = m) →
      (∀ f, m.store.Holds (.function f) → m.store.Callable f) ∧
      ∀ n callee args value m₁ values m₂, evaluate n callee m = .ok value m₁ →
        ((innerAt .silent n).evaluateAll args).unwatched m₁ = .ok values m₂ →
        (∀ f, value = .function f → m₁.store.Callable f) ∧
        (∀ line, evaluate (n + 1) (.call callee line args) m = callValue n value line values m₂) ∧
        (∀ f, value = .function f → f.isInitializer = true →
          ∃ id c, m₂.store.frames.Fixes f.frame thisName (.object id c) ∧
            ∀ line, callValue n value line values m₂ =
              (do
                Eval.checkCount line f.arity values
                let _ ← (innerAt .silent n).runBody f values
                return .object id c : Watched Unit Value).unwatched m₂) ∧
        ∀ c line result m', value = .classObject c → callValue n value line values m₂ = .ok result m' →
          result = .object m₂.store.instances.size c ∧ m₂.store.instances.size < m'.store.instances.size ∧
          ∀ c', ¬m₂.store.Holds (.object m₂.store.instances.size c') := by
  intro start last m reached
  obtain ⟨r, plays⟩ : ∃ r, m.store.Plays r := by
    obtain ⟨r, atEnd, seen⟩ := Session.plays_after settings sink files clock fuel items
    rcases reached with rfl | ⟨v, hv, rfl⟩
    · exact ⟨r, atEnd⟩
    · obtain ⟨older, -, plays⟩ := seen v hv
      exact ⟨older, plays⟩
  refine ⟨fun f held => plays.callable (plays.values.of_holds held), ?_⟩
  intro n callee args value m₁ values m₂ hcallee hargs
  obtain ⟨r₁, -, plays₁, allowed₁⟩ := plays.evaluate hcallee
  obtain ⟨r₂, le, plays₂, hv⟩ := plays₁.evaluateAll hargs
  have allowed₂ := allowed₁.mono le
  refine ⟨?_, fun line => evaluate_call hcallee hargs, ?_, ?_⟩
  · rintro f rfl
    exact plays₁.callable allowed₁
  · rintro f rfl initializes
    exact plays₂.callValue_initializer hv allowed₂ initializes
  · rintro c line result m' rfl ends
    exact plays₂.callValue_classObject hv allowed₂ ends

/-- An initializer comes out. -/
def yieldsInitializer : EStateM.Result Halt Machine Value → Bool
  | .ok (.function f) _ => f.isInitializer
  | _ => false

/-- The initializer of an instance is read as a property and kept in a variable. Then it is called by this name. -/
theorem initializers_yield_their_instance_kept :
    let m := (Session.after 20 [.text "class A \x7b init() \x7b return; \x7d \x7d let f = A().init;"] .new).machine
    ∃ f m', evaluate 20 (.variable ⟨1000, ⟨"f", 0⟩⟩) m = .ok (.function f) m' ∧ f.isInitializer = true ∧
      m'.store.Callable f ∧
      ∃ id c, m'.store.frames.Fixes f.frame thisName (.object id c) ∧
        ∀ line, callValue 20 (.function f) line [] m' =
          (do
            Eval.checkCount line f.arity []
            let _ ← (innerAt .silent 20).runBody f []
            return .object id c : Watched Unit Value).unwatched m' := by
  intro m
  have read : yieldsInitializer (evaluate 20 (.variable ⟨1000, ⟨"f", 0⟩⟩) m) = true := by decide +kernel
  cases ends : evaluate 20 (.variable ⟨1000, ⟨"f", 0⟩⟩) m with
  | error halt m' =>
    rw [ends] at read
    cases read
  | ok v m' =>
    rw [ends] at read
    cases v with
    | function f =>
      obtain ⟨callable, -, yields, -⟩ :=
        (initializers_yield_their_instance _ _ _ _ 20 _ m (.inl rfl)).2 20 _ [] _ m' [] m' ends rfl
      exact ⟨f, m', rfl, read, callable f rfl, yields f rfl read⟩
    | _ => cases read

end Scriptlet
