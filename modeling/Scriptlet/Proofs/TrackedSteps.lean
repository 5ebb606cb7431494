import Scriptlet.Proofs.Lexical
import Scriptlet.Proofs.Watching

/-!
# Single steps of a run keep track

A regime says which nodes may be evaluated with how much fuel, and how an evaluation may stop. Here are the laws that a
tracking has to obey for the single steps of a run, and what follows for these steps.
-/
namespace Scriptlet

/-! ## Parts of nodes -/

/-- The expressions that the rule for an expression evaluates. -/
def Expr.parts : Expr → List Expr
  | .literal _ | .variable _ | .this .. | .super .. => []
  | .group e | .unary _ _ e | .assign _ e | .get e _ => [e]
  | .binary l _ _ r | .set l _ r | .logical l .and _ r | .logical l .or _ r => [l, r]
  | .logical l op line r => [Expr.expandConnective l op line r]
  | .call f _ args => f :: args
  | .array es => es

namespace Stmt

/-- The expressions that the rule for a statement evaluates. -/
def expressions : Stmt → List Expr
  | .expression e | .print e | .constDecl _ e | .ifThen e _ | .ifElse e _ _ | .doWhile _ e => [e]
  | .letDecl _ init | .returnValue _ init => init.toList
  | .whileLoop c _ inc => c :: inc.toList
  | .classDecl _ superclass _ _ => (superclass.map Expr.variable).toList
  | _ => []

/-- The routines that a statement declares. -/
def routines : Stmt → List FunctionDecl
  | .function d => [d]
  | .classDecl _ _ methods statics => methods ++ statics
  | _ => []

def isLoop : Stmt → Bool
  | .whileLoop .. | .doWhile .. => true
  | _ => false

end Stmt

/-! ## Regimes -/

/-- Calls may nest so much deeper. -/
def Machine.spare (m : Machine) : Nat := m.settings.maxCallDepth - m.context.callDepth

/-- What may be evaluated: with how much fuel, and where calls may nest how much deeper. -/
structure Regime where
  /-- Routines that functions may come from. -/
  declaration : FunctionDecl → Prop
  /-- How an evaluation may stop. -/
  halt : Halt → Prop
  expr : (fuel spare : Nat) → Expr → Prop
  stmt : (fuel spare : Nat) → Stmt → Prop
  fault (line : Nat) (f : Fault) : halt (.fault line f)
  exprSpent {spare : Nat} {e : Expr} : expr 0 spare e → halt .outOfFuel
  stmtSpent {spare : Nat} {s : Stmt} : stmt 0 spare s → halt .outOfFuel
  exprPart {fuel spare : Nat} {e p : Expr} : expr (fuel + 1) spare e → p ∈ e.parts → expr fuel spare p
  callBody {fuel spare : Nat} {f : Expr} {line : Nat} {args : List Expr} {d : FunctionDecl} {s : Stmt} :
    expr (fuel + 1) (spare + 1) (.call f line args) → declaration d → s ∈ d.body → stmt fuel spare s
  stmtExpr {fuel spare : Nat} {s : Stmt} {e : Expr} :
    stmt (fuel + 1) spare s → e ∈ s.expressions → expr fuel spare e
  stmtPart {fuel spare : Nat} {s t : Stmt} : stmt (fuel + 1) spare s → t ∈ s.parts → stmt fuel spare t
  stmtRoutine {fuel spare : Nat} {s : Stmt} {d : FunctionDecl} :
    stmt (fuel + 1) spare s → d ∈ s.routines → declaration d
  loop {fuel spare : Nat} {s : Stmt} : stmt (fuel + 1) spare s → s.isLoop = true → halt .outOfFuel
  imported {fuel spare : Nat} {line : Nat} {path : String} (s : Stmt) :
    stmt (fuel + 1) spare (.importFile line path) → stmt fuel spare s

/-- Everything may be evaluated. -/
def Regime.free : Regime where
  declaration _ := True
  halt _ := True
  expr _ _ _ := True
  stmt _ _ _ := True
  fault _ _ := trivial
  exprSpent _ := trivial
  stmtSpent _ := trivial
  exprPart _ _ := trivial
  callBody _ _ _ := trivial
  stmtExpr _ _ := trivial
  stmtPart _ _ := trivial
  stmtRoutine _ _ := trivial
  loop _ _ := trivial
  imported _ _ := trivial

/-! ## Trackings -/

/-- All methods of the class come from such routines. -/
def ClassObject.ComesFrom (D : FunctionDecl → Prop) (c : ClassObject) : Prop :=
  ∀ layer ∈ c.layers, ∀ name f, layer.methods.find? name = some f ∨ layer.statics.find? name = some f →
    D f.declaration

namespace Tracking

variable {ν α β : Type}

/-- The class holds nothing but methods and static methods that are allowed. -/
def Class (T : Tracking ν) (g : T.Ghost) (c : ClassObject) : Prop :=
  ∀ layer ∈ c.layers, ∀ name f, (layer.methods.find? name = some f → T.method g f) ∧
    (layer.statics.find? name = some f → T.value g (.function f))

namespace Class

variable {T : Tracking ν} {g g' : T.Ghost} {c : ClassObject}

theorem mono (le : T.le g g') (h : T.Class g c) : T.Class g' c := by
  intro layer hl name f
  obtain ⟨methods, statics⟩ := h layer hl name f
  exact ⟨fun hf => T.methodMono le (methods hf), fun hf => T.mono le (statics hf)⟩

theorem method? (h : T.Class g c) {name : String} {f : FunctionObject} (hf : c.method? name = some f) :
    T.method g f := by
  obtain ⟨layer, hl, hf⟩ := List.exists_of_findSome?_eq_some hf
  exact (h layer hl name f).1 hf

theorem static? (h : T.Class g c) {name : String} {f : FunctionObject} (hf : c.static? name = some f) :
    T.value g (.function f) := by
  obtain ⟨layer, hl, hf⟩ := List.exists_of_findSome?_eq_some hf
  exact (h layer hl name f).2 hf

/-- A class on top of those it inherits from. -/
theorem extended {parent : Option ClassObject} (hp : ∀ c, parent = some c → T.Class g c) {own : ClassLayer}
    (hm : ∀ name f, own.methods.find? name = some f → T.method g f)
    (hs : ∀ name f, own.statics.find? name = some f → T.value g (.function f)) :
    T.Class g ⟨own, (parent.map ClassObject.layers).getD []⟩ := by
  intro layer hl name f
  rcases List.mem_cons.1 hl with rfl | hl
  · exact ⟨hm name f, hs name f⟩
  · cases parent with
    | none => cases hl
    | some c => exact hp c rfl layer hl name f

end Class

/-- What the tracking has to say of frames, fields and observers. -/
structure LawfulStore (T : Tracking ν) (o : Observer ν) : Prop extends T.LawfulData where
  called {g : T.Ghost} {i : Identity} {f : Native} {kind : CollectionKind} {id : StorageId} :
    T.value g (.native i f) → f.receiver? = some (kind, id) → T.receiver g kind id
  binding {g : T.Ghost} {s : Store} {n : ν} {f : FrameId} {name : String} {b : Binding} : T.state g s n →
    s.frames.bindingAt? f name = some b → b.value ≠ .undefined → T.value g b.value
  field {g : T.Ghost} {s : Store} {n : ν} {id : InstanceId} {name : String} {v : Value} : T.state g s n →
    s.field? id name = some v → T.value g v
  tell {g : T.Ghost} {m : Machine} {n : ν} (event : Event) : T.state g m.store n →
    T.state g m.store (o ⟨event, m⟩ n)
  told (m : Machine) (n : ν) (name : Name) :
    T.vacant (o ⟨.executing (.letDecl name none), m⟩ n) m.context.frame name.text
  child {g : T.Ghost} {s : Store} {n : ν} (f : FrameId) : T.state g s n →
    T.Next g { s with frames := s.frames.child f } n
  bind {g : T.Ghost} {s : Store} {n : ν} {f : FrameId} {name : String} {v : Value} (constant : Bool) :
    T.state g s n → s.frames.bindingAt? f name = none → T.value g v →
    T.Next g (s.updateFrames (·.bind f name v constant)) n
  bindMissing {g : T.Ghost} {s : Store} {n : ν} {f : FrameId} {name : String} : T.state g s n →
    s.frames.bindingAt? f name = none → T.vacant n f name →
    T.Next g (s.updateFrames (·.bind f name .undefined false)) n
  store {g : T.Ghost} {s : Store} {n : ν} {f : FrameId} {name : String} {v : Value} : T.state g s n →
    s.frames.storeError? f name v = none → T.value g v → T.Next g (s.updateFrames (·.store f name v)) n
  setField {g : T.Ghost} {s : Store} {n : ν} {v : Value} (id : InstanceId) (name : String) : T.state g s n →
    T.value g v → T.Next g (s.setField id name v) n

/-- The tracking goes along with the steps of a run, if functions come from routines that meet `D`. -/
structure Lawful (T : Tracking ν) (D : FunctionDecl → Prop) (o : Observer ν) : Prop extends T.LawfulStore o where
  function {g : T.Ghost} {f : FunctionObject} : T.value g (.function f) → D f.declaration
  classObject {g : T.Ghost} {c : ClassObject} : T.value g (.classObject c) ↔ T.Class g c
  object {g : T.Ghost} {id : InstanceId} {c : ClassObject} : T.value g (.object id c) → T.Class g c
  newFunction {g : T.Ghost} {s : Store} {n : ν} {d : FunctionDecl} (frame : FrameId) : T.state g s n → D d →
    ∃ g', T.le g g' ∧ T.state g' s.freshIdentity.2 n ∧ T.value g' (.function ⟨s.nextIdentity, d, frame, false⟩)
  newMethod {g : T.Ghost} {s : Store} {n : ν} {d : FunctionDecl} (frame : FrameId) (isInitializer : Bool) :
    T.state g s n → D d →
    ∃ g', T.le g g' ∧ T.state g' s.freshIdentity.2 n ∧ T.method g' ⟨s.nextIdentity, d, frame, isInitializer⟩
  bindMethod {g : T.Ghost} {s : Store} {n : ν} {f : FunctionObject} {id : InstanceId} {c : ClassObject} :
    T.state g s n → T.method g f → T.value g (.object id c) →
    ∃ g', T.le g g' ∧ T.state g' (s.bindMethod f id c thisName).2 n ∧
      T.value g' (.function (s.bindMethod f id c thisName).1)
  newInstance {g : T.Ghost} {s : Store} {n : ν} {c : ClassObject} : T.state g s n → T.Class g c →
    ∃ g', T.le g g' ∧ T.state g' s.newInstance.2 n ∧ T.value g' (.object s.instances.size c)

/-- Functions, classes and instances are allowed just if their routines meet `D`. -/
structure ByDeclaration (T : Tracking ν) (D : FunctionDecl → Prop) (o : Observer ν) : Prop extends
    T.LawfulStore o where
  function {g : T.Ghost} {f : FunctionObject} : T.value g (.function f) ↔ D f.declaration
  method {g : T.Ghost} {f : FunctionObject} : T.method g f ↔ D f.declaration
  classObject {g : T.Ghost} {c : ClassObject} : T.value g (.classObject c) ↔ c.ComesFrom D
  object {g : T.Ghost} {id : InstanceId} {c : ClassObject} : T.value g (.object id c) ↔ c.ComesFrom D
  newInstance {g : T.Ghost} {s : Store} {n : ν} : T.state g s n → T.Next g s.newInstance.2 n

/-- A new frame that binds one name. -/
theorem LawfulStore.bindNew {T : Tracking ν} {o : Observer ν} (hT : T.LawfulStore o) {g : T.Ghost} {s : Store} {n : ν}
    {v : Value} (h : T.state g s n) (hv : T.value g v) (enclosing : FrameId) (name : String) :
    T.Next g ((s.newFrame enclosing).2.updateFrames (·.bind s.frames.size name v true)) n :=
  (hT.child enclosing h).step fun _ le opened =>
    hT.bind true opened (s.frames.bindingAt?_child_new enclosing name) (T.mono le hv)

namespace ByDeclaration

variable {T : Tracking ν} {D : FunctionDecl → Prop} {o : Observer ν} (hT : T.ByDeclaration D o)
include hT

theorem class_iff {g : T.Ghost} {c : ClassObject} : T.Class g c ↔ c.ComesFrom D := by
  constructor
  · rintro allowed layer hl name f (hf | hf)
    · exact hT.method.1 ((allowed layer hl name f).1 hf)
    · exact hT.function.1 ((allowed layer hl name f).2 hf)
  · intro comes layer hl name f
    exact ⟨fun hf => hT.method.2 (comes layer hl name f (.inl hf)),
      fun hf => hT.function.2 (comes layer hl name f (.inr hf))⟩

theorem lawful : T.Lawful D o where
  toLawfulStore := hT.toLawfulStore
  function := hT.function.1
  classObject := hT.classObject.trans hT.class_iff.symm
  object allowed := hT.class_iff.2 (hT.object.1 allowed)
  newFunction frame h hd := by
    obtain ⟨g', le, state⟩ := hT.identity h
    exact ⟨g', le, state, hT.function.2 hd⟩
  newMethod frame isInitializer h hd := by
    obtain ⟨g', le, state⟩ := hT.identity h
    exact ⟨g', le, state, hT.method.2 hd⟩
  bindMethod {g s n f id c} h hf ho := by
    have comes : D f.declaration := hT.method.1 hf
    have bound := (hT.bindNew h ho f.frame thisName).step fun _ _ opened => hT.identity opened
    obtain ⟨g', le, state⟩ := bound
    exact ⟨g', le, state, hT.function.2 comes⟩
  newInstance h hc := by
    obtain ⟨g', le, state⟩ := hT.newInstance h
    exact ⟨g', le, state, hT.object.2 (hT.class_iff.1 hc)⟩

end ByDeclaration

variable {T : Tracking ν} {g g' : T.Ghost}

/-! ## Evaluations that keep track -/

/-- The run may come from `w` to `w'`, with its ghost state along. -/
structure After (T : Tracking ν) (g : T.Ghost) (w : Machine × ν) (g' : T.Ghost) (w' : Machine × ν) : Prop where
  context : w'.1.context = w.1.context
  settings : w'.1.settings = w.1.settings
  le : T.le g g'
  state : T.state g' w'.1.store w'.2

/-- From `w` the evaluation keeps what is tracked and stops in such ways only. Its result meets `R`. -/
def Keeps (T : Tracking ν) (G : Regime) (g : T.Ghost) (w : Machine × ν) (x : Watched ν α)
    (R : T.Ghost → α → Prop) : Prop :=
  Meets x w (fun a w' => ∃ g', T.After g w g' w' ∧ R g' a) (fun h w' => G.halt h ∧ ∃ g', T.After g w g' w')

variable {G : Regime} {w w' w'' : Machine × ν} {g'' : T.Ghost}

theorem After.refl (h : T.state g w.1.store w.2) : T.After g w g w := ⟨rfl, rfl, T.refl g, h⟩

theorem After.trans (h : T.After g w g' w') (h' : T.After g' w' g'' w'') : T.After g w g'' w'' :=
  ⟨h'.context.trans h.context, h'.settings.trans h.settings, T.trans h.le h'.le, h'.state⟩

theorem After.spare (h : T.After g w g' w') : w'.1.spare = w.1.spare := by
  unfold Machine.spare
  rw [h.context, h.settings]

namespace Keeps

variable {R : T.Ghost → α → Prop} {S : T.Ghost → β → Prop}

theorem pure (h : T.state g w.1.store w.2) {a : α} (hr : R g a) : T.Keeps G g w (Pure.pure a) R :=
  ⟨g, .refl h, hr⟩

theorem throw (h : T.state g w.1.store w.2) {halt : Halt} (hh : G.halt halt) :
    T.Keeps G g w (MonadExcept.throw halt) R :=
  ⟨hh, g, .refl h⟩

theorem fail (h : T.state g w.1.store w.2) (line : Nat) (f : Fault) :
    T.Keeps G g w (liftM (Eval.fail line f : Eval α)) R :=
  ⟨G.fault line f, g, .refl h⟩

theorem bind {x : Watched ν α} {f : α → Watched ν β} (hx : T.Keeps G g w x R)
    (hf : ∀ a g' w', T.After g w g' w' → R g' a → T.Keeps G g' w' (f a) S) : T.Keeps G g w (x >>= f) S := by
  refine Meets.bind hx ?_
  rintro a w' ⟨g', after, hr⟩
  refine Meets.mono (hf a g' w' after hr) ?_ ?_
  · rintro b w'' ⟨g'', after', hs⟩
    exact ⟨g'', after.trans after', hs⟩
  · rintro h w'' ⟨hh, g'', after'⟩
    exact ⟨hh, g'', after.trans after'⟩

theorem ite {c : Prop} [Decidable c] {x y : Watched ν α} (hx : T.Keeps G g w x R) (hy : T.Keeps G g w y R) :
    T.Keeps G g w (if c then x else y) R := by
  split
  · exact hx
  · exact hy

/-- A step that changes nothing. -/
theorem reads (h : T.state g w.1.store w.2) {x : Eval α} {Q : α → Prop} (hx : Eval.Reads w.1 x Q)
    (hr : ∀ a, Q a → R g a) : T.Keeps G g w (liftM x) R := by
  refine Watched.meets_unseen (Meets.mono hx ?_ ?_)
  · rintro a m ⟨rfl, ha⟩
    exact ⟨g, .refl h, hr a ha⟩
  · rintro halt m ⟨fault, rfl⟩
    cases halt with
    | fault line f => exact ⟨G.fault line f, g, .refl h⟩
    | outOfFuel => exact False.elim fault

theorem bindReads (h : T.state g w.1.store w.2) {x : Eval α} {Q : α → Prop} {f : α → Watched ν β}
    (hx : Eval.Reads w.1 x Q) (hf : ∀ a, Q a → T.Keeps G g w (f a) S) : T.Keeps G g w (liftM x >>= f) S := by
  refine Meets.bind (Q := fun a w' => w' = w ∧ Q a) ?_ ?_
  · refine Watched.meets_unseen (Meets.mono hx ?_ ?_)
    · rintro a m ⟨rfl, ha⟩
      exact ⟨rfl, ha⟩
    · rintro halt m ⟨fault, rfl⟩
      cases halt with
      | fault line f => exact ⟨G.fault line f, g, .refl h⟩
      | outOfFuel => exact False.elim fault
  · rintro a w' ⟨rfl, ha⟩
    exact hf a ha

/-- A native function or an operator. -/
theorem carries {x : Eval α} (hx : T.Carries g w.1 w.2 x R) : T.Keeps G g w (liftM x) R := by
  have context {m : Machine} (same : w.1.SameButData m) : m.context = w.1.context := by rw [same]
  have settings {m : Machine} (same : w.1.SameButData m) : m.settings = w.1.settings := by rw [same]
  refine Watched.meets_unseen (Meets.mono hx ?_ ?_)
  · rintro a m ⟨same, g', le, state, hr⟩
    exact ⟨g', ⟨context same, settings same, le, state⟩, hr⟩
  · rintro halt m ⟨fault, same, g', le, state⟩
    cases halt with
    | fault line f => exact ⟨G.fault line f, g', context same, settings same, le, state⟩
    | outOfFuel => exact False.elim fault

theorem withStore {f : Store → α × Store} (h : T.Next g (f w.1.store).2 w.2)
    (hr : ∀ g', T.le g g' → R g' (f w.1.store).1) : T.Keeps G g w (liftM (Eval.withStore f)) R := by
  obtain ⟨g', le, state⟩ := h
  exact ⟨g', ⟨rfl, rfl, le, state⟩, hr g' le⟩

theorem modifyStore {f : Store → Store} (h : T.Next g (f w.1.store) w.2) :
    T.Keeps G g w (liftM (Eval.modifyStore f)) fun _ _ => True := by
  obtain ⟨g', le, state⟩ := h
  exact ⟨g', ⟨rfl, rfl, le, state⟩, trivial⟩

/-- What is kept does not depend on someone watching. -/
theorem outcome {x : Watched ν α} {y : Eval α} (hx : T.Keeps G g w x R) (same : Watched.outcome (x w) = y w.1) :
    Meets y w.1 (fun a m => ∃ g' n, T.After g w g' (m, n) ∧ R g' a)
      fun halt m => G.halt halt ∧ ∃ g' n, T.After g w g' (m, n) := by
  unfold Keeps Meets at hx
  unfold Meets
  rw [← same]
  cases ends : x w with
  | ok a w' =>
    rw [ends] at hx
    obtain ⟨g', after, hr⟩ := hx
    exact ⟨g', w'.2, after, hr⟩
  | error halt w' =>
    rw [ends] at hx
    obtain ⟨allowed, g', after⟩ := hx
    exact ⟨allowed, g', w'.2, after⟩

end Keeps

end Tracking

/-- The evaluation leaves alone the store, the context and the settings. Its result meets `Q`. -/
def Eval.Aside (x : Eval α) (Q : α → Prop) : Prop :=
  ∀ m, Meets x m
    (fun a m' => (m'.store = m.store ∧ m'.context = m.context ∧ m'.settings = m.settings) ∧ Q a)
    (fun h m' => h ≠ .outOfFuel ∧ m'.store = m.store ∧ m'.context = m.context ∧ m'.settings = m.settings)

namespace Eval.Aside

variable {α β : Type} {Q : α → Prop} {S : β → Prop}

theorem pure {a : α} (h : Q a) : Aside (Pure.pure a) Q := fun _ => ⟨⟨rfl, rfl, rfl⟩, h⟩

theorem bind {x : Eval α} {f : α → Eval β} (hx : x.Aside Q) (hf : ∀ a, Q a → (f a).Aside S) :
    (x >>= f).Aside S := by
  intro m
  refine Meets.bind (hx m) ?_
  rintro a m' ⟨⟨store, context, settings⟩, ha⟩
  have step := hf a ha m'
  rwa [store, context, settings] at step

theorem guard {c : Prop} [Decidable c] {line : Nat} {f : Fault} {x : Eval α} (hx : x.Aside Q) :
    Aside (do
      if c then Eval.fail line f
      x) Q := by
  intro m
  exact Eval.meets_guard (fun _ => ⟨nofun, rfl, rfl, rfl⟩) fun _ => hx m

theorem writeLine (v : Value) : (Eval.writeLine v).Aside fun _ => True := fun _ => ⟨⟨rfl, rfl, rfl⟩, trivial⟩

theorem markImported (place : Place) : (Eval.markImported place).Aside fun _ => True :=
  fun _ => ⟨⟨rfl, rfl, rfl⟩, trivial⟩

theorem report (d : Diagnostic) : (Eval.report d).Aside fun _ => True := by
  intro m
  have same := m.report_same d
  exact ⟨⟨same.store, same.context, same.settings⟩, trivial⟩

theorem load (inComment : Bool) (text : String) :
    (modifyGet (·.load inComment text) : Eval Program).Aside fun _ => True := by
  intro m
  obtain ⟨reported, same, loaded⟩ := m.load_same inComment text
  rw [same] at loaded
  change ((m.load inComment text).2.store = _ ∧ (m.load inComment text).2.context = _ ∧
    (m.load inComment text).2.settings = _) ∧ True
  rw [loaded]
  exact ⟨⟨rfl, rfl, rfl⟩, trivial⟩

theorem analyse (statements : List Stmt) :
    (modifyGet (·.analyse statements) : Eval Bool).Aside fun _ => True := by
  intro m
  change ((m.analyse statements).2.store = _ ∧ (m.analyse statements).2.context = _ ∧
    (m.analyse statements).2.settings = _) ∧ True
  rw [m.analyse_same statements]
  exact ⟨⟨rfl, rfl, rfl⟩, trivial⟩

theorem readDeclarations (line : Nat) (path text : String) :
    (Eval.readDeclarations line path text).Aside fun _ => True :=
  bind (load false text) fun _ _ => guard (bind (analyse _) fun _ _ => guard (pure trivial))

end Eval.Aside

namespace Tracking

variable {ν α β : Type} {T : Tracking ν} {G : Regime} {g : T.Ghost} {w : Machine × ν} {R : T.Ghost → α → Prop}

theorem Keeps.aside (h : T.state g w.1.store w.2) {x : Eval α} {Q : α → Prop} (hx : x.Aside Q)
    (hr : ∀ a, Q a → R g a) : T.Keeps G g w (liftM x) R := by
  refine Watched.meets_unseen (Meets.mono (hx w.1) ?_ ?_)
  · rintro a m ⟨⟨store, context, settings⟩, ha⟩
    refine ⟨g, ⟨context, settings, T.refl g, ?_⟩, hr a ha⟩
    rwa [store]
  · rintro halt m ⟨fault, store, context, settings⟩
    cases halt with
    | fault line f =>
      refine ⟨G.fault line f, g, context, settings, T.refl g, ?_⟩
      rwa [store]
    | outOfFuel => exact absurd rfl fault

/-- A name that is not bound in the frame yet is bound. -/
theorem Keeps.define (h : T.state g w.1.store w.2) (frame : FrameId) (name : Name) {v : Value} (constant : Bool)
    (hv : w.1.store.frames.bindingAt? frame name.text = none →
      T.Next g (w.1.store.updateFrames (·.bind frame name.text v constant)) w.2) :
    T.Keeps G g w (liftM (Eval.define frame name v constant)) fun _ _ => True := by
  unfold Eval.define
  rw [Watched.unseen_bind]
  refine .bindReads h .getStore ?_
  rintro _ rfl
  rw [Watched.unseen_bind]
  rw [Frames.defineError?]
  split
  · exact ⟨G.fault _ _, g, .refl h⟩
  · next unbound => exact .modifyStore (hv (Option.not_isSome_iff_eq_none.1 unbound))

theorem Keeps.tryCatch {x : Watched ν α} {handle : Halt → Watched ν α} (hx : T.Keeps G g w x R)
    (hh : ∀ halt g' w', G.halt halt → T.After g w g' w' → T.Keeps G g' w' (handle halt) R) :
    T.Keeps G g w (MonadExcept.tryCatch x handle) R := by
  refine Meets.tryCatch hx ?_
  rintro halt w' ⟨allowed, g', after⟩
  refine Meets.mono (hh halt g' w' allowed after) ?_ ?_
  · rintro a w'' ⟨g'', after', hr⟩
    exact ⟨g'', after.trans after', hr⟩
  · rintro halt' w'' ⟨allowed', g'', after'⟩
    exact ⟨allowed', g'', after.trans after'⟩

/-- All functions in the table meet what holds of each one that is made for it. -/
theorem Keeps.methodTable {P : T.Ghost → FunctionObject → Prop}
    (mono : ∀ {g g' f}, T.le g g' → P g f → P g' f) (h : T.state g w.1.store w.2) (frame : FrameId)
    (canInitialize : Bool) {ds : List FunctionDecl}
    (makes : ∀ d ∈ ds, ∀ {g w}, T.state g w.1.store w.2 →
      T.Keeps G g w (liftM (Eval.newFunction frame (canInitialize && d.name.text == initName) d)) P)
    {table : Table FunctionObject} (ht : ∀ name f, table.find? name = some f → P g f) :
    T.Keeps G g w (liftM (Eval.methodTable frame canInitialize ds table)) fun g' table =>
      ∀ name f, table.find? name = some f → P g' f := by
  induction ds generalizing g w table with
  | nil => exact .pure h ht
  | cons d ds ih =>
    unfold Eval.methodTable
    rw [Watched.unseen_bind]
    refine .bind (makes d (List.mem_cons_self ..) h) fun f g' w' after hf => ?_
    refine ih after.state (fun d' hmem => makes d' (List.mem_cons_of_mem _ hmem)) ?_
    intro name f' hf'
    rw [Table.find?_insert] at hf'
    split at hf'
    · cases hf'
      exact hf
    · exact mono after.le (ht name f' hf')

/-! ## Steps of a run -/

namespace Lawful

variable {D : FunctionDecl → Prop} {o : Observer ν} (hT : T.Lawful D o)
include hT

theorem literal (g : T.Ghost) (l : Literal) : T.value g l.value := by
  cases l with
  | number x => exact hT.number g x
  | bool b => exact hT.bool g b
  | null => exact hT.null g
  | string text => exact hT.string g text

theorem tells (h : T.state g w.1.store w.2) (event : Event) :
    T.Keeps G g w (Watched.tell o event) fun _ _ => True :=
  ⟨g, ⟨rfl, rfl, T.refl g, hT.tell event h⟩, trivial⟩

theorem bindTell {event : Event} {x : Watched ν α} (hx : T.state g w.1.store (o ⟨event, w.1⟩ w.2) →
      T.Keeps G g (w.1, o ⟨event, w.1⟩ w.2) x R) (h : T.state g w.1.store w.2) :
    T.Keeps G g w (do Watched.tell o event; x) R := by
  refine Meets.bind (Q := fun _ w' => w' = (w.1, o ⟨event, w.1⟩ w.2)) rfl ?_
  rintro _ _ rfl
  refine Meets.mono (hx (hT.tell event h)) ?_ ?_
  · rintro a w' ⟨g', after, hr⟩
    exact ⟨g', ⟨after.context, after.settings, after.le, after.state⟩, hr⟩
  · rintro halt w' ⟨allowed, g', after⟩
    exact ⟨allowed, g', after.context, after.settings, after.le, after.state⟩

/-- Whatever happens in another context, the context is put back. -/
theorem inContext (h : T.state g w.1.store w.2) {change : Context → Context} {x : Watched ν α}
    (hx : ∀ n, T.state g w.1.store n → T.Keeps G g (w.1.withContext (change w.1.context), n) x R) :
    T.Keeps G g w (Watched.inContext o change x) R := by
  have entered := hT.tell (m := w.1.withContext (change w.1.context)) .entering h
  refine Watched.meets_inContext (Meets.mono (hx _ entered) ?_ ?_)
  · rintro a w' ⟨g', after, hr⟩
    exact ⟨g', ⟨rfl, after.settings, after.le, after.state⟩, hr⟩
  · rintro halt w' ⟨allowed, g', after⟩
    exact ⟨allowed, g', rfl, after.settings, after.le, after.state⟩

theorem freshIdentity (h : T.state g w.1.store w.2) :
    T.Keeps G g w (liftM Eval.freshIdentity) fun _ _ => True :=
  .withStore (hT.identity h) fun _ _ => trivial

theorem newFunctions (h : T.state g w.1.store w.2) (frame : FrameId) {d : FunctionDecl} (hd : D d) :
    T.Keeps G g w (liftM (Eval.newFunction frame false d)) fun g' f => T.value g' (.function f) := by
  obtain ⟨g', le, state, value⟩ := hT.newFunction frame h hd
  exact ⟨g', ⟨rfl, rfl, le, state⟩, value⟩

theorem newMethods (h : T.state g w.1.store w.2) (frame : FrameId) (isInitializer : Bool) {d : FunctionDecl}
    (hd : D d) : T.Keeps G g w (liftM (Eval.newFunction frame isInitializer d)) T.method := by
  obtain ⟨g', le, state, method⟩ := hT.newMethod frame isInitializer h hd
  exact ⟨g', ⟨rfl, rfl, le, state⟩, method⟩

theorem newInstances (h : T.state g w.1.store w.2) {c : ClassObject} (hc : T.Class g c) :
    T.Keeps G g w (liftM (Eval.withStore Store.newInstance)) fun g' id => T.value g' (.object id c) := by
  obtain ⟨g', le, state, value⟩ := hT.newInstance h hc
  exact ⟨g', ⟨rfl, rfl, le, state⟩, value⟩

theorem newFrame (h : T.state g w.1.store w.2) (enclosing : FrameId) :
    T.Keeps G g w (liftM (Eval.newFrame enclosing)) fun _ _ => True :=
  .withStore (hT.child enclosing h) fun _ _ => trivial

theorem newSuperFrame (h : T.state g w.1.store w.2) (enclosing : FrameId) {parent : ClassObject}
    (hp : T.Class g parent) :
    T.Keeps G g w (liftM (Eval.newSuperFrame enclosing parent)) fun _ _ => True := by
  obtain ⟨g', le, state⟩ := hT.bindNew h (hT.classObject.2 hp) enclosing superName
  exact ⟨g', ⟨rfl, rfl, le, state⟩, trivial⟩

theorem bindMethods (h : T.state g w.1.store w.2) {method : FunctionObject} (hm : T.method g method)
    {id : InstanceId} {c : ClassObject} (ho : T.value g (.object id c)) :
    T.Keeps G g w (liftM (Eval.bindMethod method id c)) fun g' f => T.value g' (.function f) := by
  obtain ⟨g', le, state, value⟩ := hT.bindMethod h hm ho
  exact ⟨g', ⟨rfl, rfl, le, state⟩, value⟩

theorem define (h : T.state g w.1.store w.2) (frame : FrameId) (name : Name) {v : Value} (constant : Bool)
    (hv : T.value g v) : T.Keeps G g w (liftM (Eval.define frame name v constant)) fun _ _ => True :=
  .define h frame name constant fun unbound => hT.bind constant h unbound hv

theorem defineAll (h : T.state g w.1.store w.2) (frame : FrameId) {params : List Name} {args : List Value}
    (hv : ∀ v ∈ args, T.value g v) :
    T.Keeps G g w (liftM (Eval.defineAll frame params args)) fun _ _ => True := by
  induction params generalizing g w args with
  | nil => exact .pure h trivial
  | cons p params ih =>
    cases args with
    | nil => exact .pure h trivial
    | cons v args =>
      unfold Eval.defineAll
      rw [Watched.unseen_bind]
      refine .bind (hT.define h frame p false (hv v (List.mem_cons_self ..))) fun _ g' w' after _ => ?_
      exact ih after.state fun u hu => T.mono after.le (hv u (List.mem_cons_of_mem _ hu))

/-- A value is stored in a frame that was found for it. -/
theorem assigns (h : T.state g w.1.store w.2) {frame : Eval FrameId} {name : String} {v : Value}
    (hf : Eval.Reads w.1 frame fun target => w.1.store.frames.storeError? target name v = none) (hv : T.value g v) :
    T.Keeps G g w
      (liftM (do
        let target ← frame
        Eval.modifyStore (·.updateFrames (·.store target name v)) : Eval Unit))
      fun _ _ => True := by
  rw [Watched.unseen_bind]
  exact .bindReads h hf fun target fits => .modifyStore (hT.store h fits hv)

theorem assignFrom (h : T.state g w.1.store w.2) (frame : FrameId) (name : Name) {v : Value}
    (hv : T.value g v) : T.Keeps G g w (liftM (Eval.assignFrom frame name v)) fun _ _ => True := by
  refine hT.assigns h (.bind .getStore ?_) hv
  rintro _ rfl
  exact .liftBinding _ (fun _ => Frames.ordinary_of_assignTarget) fun _ => Frames.storeError?_of_assignTarget

theorem assignName (h : T.state g w.1.store w.2) (target : Variable) {v : Value} (hv : T.value g v) :
    T.Keeps G g w (liftM (Eval.assignName target v)) fun _ _ => True := by
  refine hT.assigns h (.bind .getMachine ?_) hv
  rintro _ rfl
  dsimp only
  split
  · exact .liftBinding _ (fun _ => Frames.ordinary_of_assignTargetAt) fun _ => Frames.storeError?_of_assignTargetAt
  · exact .liftBinding _ (fun _ => Frames.ordinary_of_assignTarget) fun _ => Frames.storeError?_of_assignTarget

/-! ### Reading -/

theorem getAt (h : T.state g w.1.store w.2) {f : FrameId} {d : Nat} {name : String} {v : Value}
    (hv : w.1.store.frames.getAt f d name = .ok v) : T.value g v := by
  obtain ⟨g, b, hb, rfl, there⟩ := Frames.binding_of_getAt hv
  exact hT.binding h hb there

theorem readName (h : T.state g w.1.store w.2) (id : NodeId) (name : Name) :
    Eval.Reads w.1 (Eval.readName id name) (T.value g) := by
  refine .readName id name (fun _ _ => hT.getAt h) fun v hv => ?_
  obtain ⟨g, b, hb, rfl, there⟩ := Frames.binding_of_get hv
  exact hT.binding h hb there

/-! ### New machines -/

/-- A new machine knows native functions only. -/
theorem initial {g : T.Ghost} {n : ν} (hs : T.state g ⟨#[⟨∅, none⟩], #[], #[], 0⟩ n) :
    T.Next g Store.initial n := by
  refine Store.initial_induction (P := fun s => T.Next g s n) (.here hs) fun s f unbound h => ?_
  refine h.step fun g' _ hs' => (hT.identity hs').step fun g'' _ counted => ?_
  exact hT.bind false counted unbound (hT.native nofun)

end Lawful

end Tracking

end Scriptlet
