import Scriptlet.Proofs.Lexical
import Scriptlet.Proofs.Steps

/-!
# Relations that the rules respect

A fact about a run, or about two runs under different observers, often says the same of every evaluation that
a run is put together from. Such a relation respects results, faults, sequences and handlers. If it also
holds of the evaluators for the parts of a node, it holds of the rules for the node, so that an induction
on the fuel carries it over to whole runs.

Calls and imports change where a run stands. A relation that says more about them than about other evaluations is
shown for the bodies of functions and for imports first; the other rules follow.
-/
namespace Scriptlet

variable {α β ν μ : Type}

/-- The other context stands in the same call and the same file. -/
structure Context.SameCall (c c' : Context) : Prop where
  callDepth : c'.callDepth = c.callDepth
  importChain : c'.importChain = c.importChain
  scriptDirectory : c'.scriptDirectory = c.scriptDirectory

/-- The relation respects how evaluations are put together inside one call. -/
structure Composes (R : ∀ ⦃α : Type⦄, Watched ν α → Watched μ α → Prop) (o : Observer ν)
    (p : Observer μ) : Prop where
  pure {α : Type} (a : α) : R (Pure.pure a) (Pure.pure a)
  throw {α : Type} (h : Halt) : R (α := α) (MonadExcept.throw h) (MonadExcept.throw h)
  lift {α : Type} {x : Eval α} : x.Quiet → R (liftM x) (liftM x)
  bind {α β : Type} {x : Watched ν α} {y : Watched μ α} {f : α → Watched ν β} {g : α → Watched μ β} :
    R x y → (∀ a, R (f a) (g a)) → R (x >>= f) (y >>= g)
  /-- That a statement is executed is shown by no rule. -/
  tell {event : Event} : (∀ s, event ≠ .executing s) → R (Watched.tell o event) (Watched.tell p event)
  inContext {α : Type} {change : Context → Context} {x : Watched ν α} {y : Watched μ α}
    (hc : ∀ c : Context, c.SameCall (change c)) : R x y →
    R (Watched.inContext o change x) (Watched.inContext p change y)

/-- The relation also respects reports, handlers, and marks of imported files. -/
structure Recovers (R : ∀ ⦃α : Type⦄, Watched ν α → Watched μ α → Prop) (o : Observer ν)
    (p : Observer μ) : Prop extends Composes R o p where
  steps {α : Type} {x : Eval α} : x.Stepwise → R (liftM x) (liftM x)
  /-- A handler passes on that there is no more fuel. -/
  tryCatch {α : Type} {x : Watched ν α} {y : Watched μ α} {f : Halt → Watched ν α}
    {g : Halt → Watched μ α} : f .outOfFuel = MonadExcept.throw .outOfFuel → R x y → (∀ e, R (f e) (g e)) →
    R (MonadExcept.tryCatch x f : Watched ν α) (MonadExcept.tryCatch y g : Watched μ α)
  markImported (place : Place) : R (liftM (Eval.markImported place)) (liftM (Eval.markImported place))

/-- The relation respects how the evaluations of a run are put together. -/
structure Respects (R : ∀ ⦃α : Type⦄, Watched ν α → Watched μ α → Prop) (o : Observer ν)
    (p : Observer μ) : Prop where
  pure {α : Type} (a : α) : R (Pure.pure a) (Pure.pure a)
  throw {α : Type} (h : Halt) : R (α := α) (MonadExcept.throw h) (MonadExcept.throw h)
  lift {α : Type} {x : Eval α} : x.Stepwise → R (liftM x) (liftM x)
  bind {α β : Type} {x : Watched ν α} {y : Watched μ α} {f : α → Watched ν β} {g : α → Watched μ β} :
    R x y → (∀ a, R (f a) (g a)) → R (x >>= f) (y >>= g)
  /-- A handler passes on that there is no more fuel. -/
  tryCatch {α : Type} {x : Watched ν α} {y : Watched μ α} {f : Halt → Watched ν α}
    {g : Halt → Watched μ α} : f .outOfFuel = MonadExcept.throw .outOfFuel → R x y → (∀ e, R (f e) (g e)) →
    R (MonadExcept.tryCatch x f : Watched ν α) (MonadExcept.tryCatch y g : Watched μ α)
  markImported (place : Place) : R (liftM (Eval.markImported place)) (liftM (Eval.markImported place))
  tell (event : Event) : R (Watched.tell o event) (Watched.tell p event)
  /-- Calls nest no deeper inside. -/
  inContext {α : Type} {change : Context → Context} {x : Watched ν α} {y : Watched μ α}
    (hc : ∀ c, (change c).callDepth = c.callDepth) : R x y →
    R (Watched.inContext o change x) (Watched.inContext p change y)
  /-- Calls nest deeper inside, after a check. -/
  enterCall (line : Nat) {opening : Watched ν FrameId} {opening' : Watched μ FrameId}
    {x : Watched ν Flow} {y : Watched μ Flow} : R opening opening' → R x y →
    R (do
        Eval.checkDepth line
        let frame ← opening
        Watched.inContext o (·.enterCall frame) x)
      (do
        Eval.checkDepth line
        let frame ← opening'
        Watched.inContext p (·.enterCall frame) y)

theorem Respects.recovers {R : ∀ ⦃α : Type⦄, Watched ν α → Watched μ α → Prop} {o : Observer ν} {p : Observer μ}
    (h : Respects R o p) : Recovers R o p where
  pure := h.pure
  throw := h.throw
  lift hx := h.lift hx.stepwise
  bind := h.bind
  tell _ := h.tell _
  inContext hc := h.inContext fun c => (hc c).callDepth
  steps := h.lift
  tryCatch := h.tryCatch
  markImported := h.markImported

namespace Composes

variable {R : ∀ ⦃α : Type⦄, Watched ν α → Watched μ α → Prop}

theorem ite {o : Observer ν} {p : Observer μ} {c : Prop} [Decidable c] {x x' : Watched ν α} {y y' : Watched μ α}
    (_ : Composes R o p) (h : R x y) (h' : R x' y') : R (if c then x else x') (if c then y else y') := by
  split
  · exact h
  · exact h'

theorem loop {o : Observer ν} {p : Observer μ} (hR : Composes R o p) {x : Watched ν (Option α)}
    {y : Watched μ (Option α)} (h : R x y) (fuel : Nat) : R (Watched.loop x fuel) (Watched.loop y fuel) := by
  induction fuel with
  | zero => exact hR.throw .outOfFuel
  | succ n ih =>
    refine hR.bind h fun r => ?_
    cases r with
    | none => exact ih
    | some a => exact hR.pure a

variable {inner : Inner ν} {other : Inner μ} (h : Composes R inner.observer other.observer)
include h

theorem openFrame (region : Region) (enclosing : FrameId) :
    R (inner.openFrame region enclosing) (other.openFrame region enclosing) :=
  h.bind (h.lift (.newFrame _)) fun _ => h.bind (h.tell nofun) fun _ => h.pure _

theorem openCall (f : FunctionObject) (args : List Value) :
    R (inner.openCall f args) (other.openCall f args) :=
  h.bind (h.openFrame _ _) fun _ => h.bind (h.lift (.defineAll _ _ _)) fun _ => h.pure _

theorem runAll {ss : List Stmt} (hs : ∀ s ∈ ss, R (inner.execute s) (other.execute s)) :
    R (inner.runAll ss) (other.runAll ss) := by
  induction ss with
  | nil => exact h.pure _
  | cons s ss ih =>
    refine h.bind (hs s (List.mem_cons_self ..)) fun flow => ?_
    cases flow with
    | normal => exact ih fun t ht => hs t (List.mem_cons_of_mem _ ht)
    | breaking | continuing | returning => exact h.pure _

end Composes

namespace Recovers

variable {R : ∀ ⦃α : Type⦄, Watched ν α → Watched μ α → Prop} {inner : Inner ν} {other : Inner μ}
  (h : Recovers R inner.observer other.observer)
include h

theorem runDeclarations {place : Place} {declarations : List Stmt}
    (hrun : R (inner.runImported place declarations) (other.runImported place declarations)) (line : Nat)
    (path : String) :
    R (inner.runDeclarations line path place declarations)
      (other.runDeclarations line path place declarations) := by
  unfold Inner.runDeclarations
  refine h.bind (h.tell nofun) fun _ => ?_
  refine h.bind (h.tryCatch rfl ?_ fun halt => ?_) fun _ => h.markImported place
  · exact h.bind hrun fun _ => h.pure _
  · cases halt with
    | fault line' f => exact h.bind (h.steps (.report _)) fun _ => h.lift (.fail _ _)
    | outOfFuel => exact h.throw _

theorem importSource {place : Place} (hrun : ∀ declarations,
      R (inner.runImported place declarations) (other.runImported place declarations)) (line : Nat) (path : String)
    (source : Except SourceError String) :
    R (inner.importSource line path place source) (other.importSource line path place source) := by
  cases source with
  | error e => exact h.lift (.fail _ _)
  | ok text =>
    exact h.bind (h.steps (.readDeclarations _ _ _)) fun ds => h.runDeclarations (hrun ds) line path

/-- An import, if running the declarations of a file is understood. -/
theorem importFile (hrun : ∀ place declarations,
      R (inner.runImported place declarations) (other.runImported place declarations)) (line : Nat) (path : String) :
    R (inner.importFile line path) (other.importFile line path) := by
  unfold Inner.importFile
  refine h.bind (h.lift .getMachine) fun m => ?_
  split
  · exact h.lift (.fail _ _)
  · exact h.ite (h.lift (.fail _ _)) (h.ite (h.pure _) (h.importSource (hrun _) line path _))

end Recovers

namespace Inner

/-- The relation also holds of what the rules for a node use: the evaluators for its parts, as far as statements meet
`S`, and the bodies of functions. -/
structure Parts (R : ∀ ⦃α : Type⦄, Watched ν α → Watched μ α → Prop) (S : Stmt → Prop) (inner : Inner ν)
    (other : Inner μ) : Prop extends Composes R inner.observer other.observer where
  turns {α : Type} {x : Watched ν (Option α)} {y : Watched μ (Option α)} : R x y →
    R (Watched.loop x inner.fuel) (Watched.loop y other.fuel)
  evaluate (e : Expr) : R (inner.evaluate e) (other.evaluate e)
  execute (s : Stmt) : S s → R (inner.execute s) (other.execute s)
  runBody (f : FunctionObject) (args : List Value) : R (inner.runBody f args) (other.runBody f args)

namespace Parts

variable {R : ∀ ⦃α : Type⦄, Watched ν α → Watched μ α → Prop} {S : Stmt → Prop} {inner : Inner ν}
  {other : Inner μ} (h : Parts R S inner other)
include h

theorem evaluateAll (es : List Expr) : R (inner.evaluateAll es) (other.evaluateAll es) := by
  induction es with
  | nil => exact h.pure _
  | cons e es ih =>
    exact h.bind (h.evaluate e) fun _ => h.bind ih fun _ => h.pure _

/-! ## Calls -/

theorem bindMethod (method : FunctionObject) (id : InstanceId) (cls : ClassObject) :
    R (inner.bindMethod method id cls) (other.bindMethod method id cls) :=
  h.bind (h.lift (.bindMethod _ _ _)) fun _ => h.bind (h.tell nofun) fun _ => h.pure _

theorem callFunction (f : FunctionObject) (args : List Value) :
    R (inner.callFunction f args) (other.callFunction f args) := by
  unfold Inner.callFunction
  refine h.bind (h.runBody f args) fun flow => ?_
  refine h.ite (h.bind (h.lift .getStore) fun _ => h.lift (.liftBinding _ _)) ?_
  cases flow <;> exact h.pure _

theorem callValue (callee : Value) (line : Nat) (args : List Value) :
    R (inner.callValue callee line args) (other.callValue callee line args) := by
  unfold Inner.callValue
  split
  · exact h.bind (h.lift (.checkCount _ _ _)) fun _ => h.lift (.callNative _ _ _)
  · exact h.bind (h.lift (.checkCount _ _ _)) fun _ => h.callFunction _ args
  · refine h.bind (h.lift (.checkCount _ _ _)) fun _ => ?_
    refine h.bind (h.lift .newInstance) fun id => ?_
    split
    · refine h.bind (h.bindMethod _ id _) fun f => ?_
      exact h.bind (h.callFunction f args) fun _ => h.pure _
    · exact h.pure _
  · exact h.lift (.fail _ _)

/-! ## Expressions -/

theorem readProperty (object : Value) (name : Name) :
    R (inner.readProperty object name) (other.readProperty object name) := by
  unfold Inner.readProperty
  split
  · refine h.bind (h.lift .getStore) fun s => ?_
    split
    · exact h.pure _
    · split
      · exact h.bind (h.bindMethod _ _ _) fun _ => h.pure _
      · exact h.lift (.fail _ _)
  · split
    · exact h.pure _
    · exact h.lift (.fail _ _)
  · split
    · next read => exact h.lift (.property? read)
    · exact h.lift (.fail _ _)

theorem readSuper (id : NodeId) (line : Nat) (method : Name) :
    R (inner.readSuper id line method) (other.readSuper id line method) := by
  unfold Inner.readSuper
  refine h.bind (h.lift (.readSuperclass id line)) fun (parent, instanceId, c) => ?_
  dsimp only
  split
  · exact h.bind (h.bindMethod _ _ _) fun _ => h.pure _
  · exact h.lift (.fail _ _)

theorem evaluateLogical (left : Expr) (op : Connective) (line : Nat) (right : Expr) :
    R (inner.evaluateLogical left op line right) (other.evaluateLogical left op line right) := by
  unfold Inner.evaluateLogical
  split
  · exact h.bind (h.evaluate left) fun _ => h.ite (h.pure _) (h.evaluate right)
  · exact h.bind (h.evaluate left) fun _ => h.ite (h.evaluate right) (h.pure _)
  · exact h.evaluate _

theorem evaluateExpr (e : Expr) : R (inner.evaluateExpr e) (other.evaluateExpr e) := by
  cases e with
  | literal v => exact h.pure _
  | group e => exact h.evaluate e
  | array es => exact h.bind (h.evaluateAll es) fun _ => h.lift (.newCollection _ _)
  | unary op line e => exact h.bind (h.evaluate e) fun _ => h.lift (.unaryOp _ _ _)
  | binary l op line r =>
    exact h.bind (h.evaluate l) fun _ => h.bind (h.evaluate r) fun _ => h.lift (.binaryOp _ _ _ _)
  | logical l op line r => exact h.evaluateLogical l op line r
  | «variable» use => exact h.lift (.readName _ _)
  | this id line => exact h.lift (.readName _ _)
  | assign target e =>
    refine h.bind (h.evaluate e) fun v => ?_
    exact h.bind (h.tell nofun) fun _ => h.bind (h.lift (.assignName _ _)) fun _ => h.pure _
  | call f line args =>
    refine h.bind (h.evaluate f) fun callee => ?_
    exact h.bind (h.evaluateAll args) fun values => h.callValue callee line values
  | get o name => exact h.bind (h.evaluate o) fun v => h.readProperty v name
  | set o name e =>
    refine h.bind (h.evaluate o) fun object => ?_
    refine h.bind (h.lift (.assignedInstance _ _)) fun id => ?_
    exact h.bind (h.evaluate e) fun _ => h.bind (h.lift (.setField _ _ _)) fun _ => h.pure _
  | super id line method => exact h.readSuper id line method

/-! ## Classes -/

theorem evaluateSuperclass (superclass : Option Variable) :
    R (inner.evaluateSuperclass superclass) (other.evaluateSuperclass superclass) := by
  cases superclass with
  | none => exact h.pure _
  | some use =>
    refine h.bind (h.evaluate _) fun v => ?_
    cases v with
    | classObject c => exact h.pure _
    | _ => exact h.lift (.fail _ _)

theorem openClass (declaration : Stmt) (frame : FrameId) (parent : Option ClassObject) :
    R (inner.openClass declaration frame parent) (other.openClass declaration frame parent) := by
  cases parent with
  | none => exact h.pure _
  | some c =>
    exact h.bind (h.lift (.newSuperFrame _ _)) fun _ => h.bind (h.tell nofun) fun _ => h.pure _

theorem makeClass (frame : FrameId) (parent : Option ClassObject) (name : Name) (superclass : Option Variable)
    (methods statics : List FunctionDecl) :
    R (inner.makeClass frame parent name superclass methods statics)
      (other.makeClass frame parent name superclass methods statics) := by
  refine h.bind (h.openClass _ frame parent) fun classFrame => ?_
  refine h.bind (h.lift (.methodTable _ _ _ _)) fun instanceMethods => ?_
  refine h.bind (h.openFrame _ _) fun staticFrame => ?_
  refine h.bind (h.lift (.methodTable _ _ _ _)) fun staticMethods => ?_
  exact h.bind (h.lift .freshIdentity) fun _ => h.pure _

theorem declareClass (name : Name) (superclass : Option Variable) (methods statics : List FunctionDecl) :
    R (inner.declareClass name superclass methods statics)
      (other.declareClass name superclass methods statics) := by
  refine h.bind (h.evaluateSuperclass superclass) fun parent => ?_
  refine h.bind (h.lift .currentFrame) fun frame => ?_
  refine h.bind (h.lift (.define _ _ _ _)) fun _ => ?_
  exact h.bind (h.makeClass frame parent name superclass methods statics) fun _ => h.lift (.assignFrom _ _ _)

/-! ## Statements -/

theorem runBlock {body : List Stmt} (hs : ∀ s ∈ body, S s) : R (inner.runBlock body) (other.runBlock body) := by
  refine h.bind (h.lift .currentFrame) fun current => ?_
  refine h.bind (h.openFrame _ _) fun _ => h.inContext (fun _ => ⟨rfl, rfl, rfl⟩) ?_
  exact h.runAll fun s hmem => h.execute s (hs s hmem)

theorem evaluateAny (e : Option Expr) : R (inner.evaluateAny e) (other.evaluateAny e) := by
  cases e with
  | none => exact h.pure _
  | some e => exact h.bind (h.evaluate e) fun _ => h.pure _

theorem whileTurn (c : Expr) {body : Stmt} (hs : S body) (increment : Option Expr) :
    R (inner.whileTurn c body increment) (other.whileTurn c body increment) := by
  unfold Inner.whileTurn
  refine h.bind (h.evaluate c) fun v => ?_
  refine h.ite (h.pure _) ?_
  refine h.bind (h.execute body hs) fun flow => ?_
  cases flow with
  | breaking | returning => exact h.pure _
  | normal | continuing => exact h.bind (h.evaluateAny increment) fun _ => h.pure _

theorem doTurn {body : Stmt} (hs : S body) (c : Expr) : R (inner.doTurn body c) (other.doTurn body c) := by
  unfold Inner.doTurn
  refine h.bind (h.execute body hs) fun flow => ?_
  cases flow with
  | breaking | returning => exact h.pure _
  | normal | continuing =>
    exact h.bind (h.evaluate c) fun _ => h.ite (h.pure _) (h.pure _)

theorem runLoop {turn : Watched ν (Option Flow)} {turn' : Watched μ (Option Flow)} (ht : R turn turn') :
    R (inner.runLoop turn) (other.runLoop turn') := by
  unfold Inner.runLoop
  exact h.inContext (fun _ => ⟨rfl, rfl, rfl⟩) (h.turns ht)

theorem initialValue (init : Option Expr) :
    R (inner.initialValue init) (other.initialValue init) := by
  cases init with
  | none => exact h.pure _
  | some e => exact h.evaluate e

/-- A statement, if an import is understood. -/
theorem executeStmt {s : Stmt} (hs : ∀ t ∈ s.parts, S t) (himport : ∀ line path, s = .importFile line path →
      R (inner.importFile line path) (other.importFile line path)) :
    R (inner.executeStmt s) (other.executeStmt s) := by
  cases s with
  | expression e =>
    refine h.bind (h.evaluate e) fun v => ?_
    refine h.bind (h.lift .getMachine) fun m => ?_
    exact h.ite (h.bind (h.lift (.writeLine v)) fun _ => h.pure _) (h.pure _)
  | print e =>
    exact h.bind (h.evaluate e) fun v => h.bind (h.lift (.writeLine v)) fun _ => h.pure _
  | letDecl name init =>
    refine h.bind (h.initialValue init) fun v => ?_
    refine h.bind (h.lift .currentFrame) fun _ => ?_
    exact h.bind (h.lift (.define _ _ _ _)) fun _ => h.pure _
  | constDecl name init =>
    refine h.bind (h.evaluate init) fun v => ?_
    refine h.bind (h.lift .currentFrame) fun _ => ?_
    exact h.bind (h.lift (.define _ _ _ _)) fun _ => h.pure _
  | block body => exact h.runBlock hs
  | ifThen c t =>
    exact h.bind (h.evaluate c) fun _ => h.ite (h.execute t (hs t (.head _))) (h.pure _)
  | ifElse c t e =>
    refine h.bind (h.evaluate c) fun _ => ?_
    exact h.ite (h.execute t (hs t (.head _))) (h.execute e (hs e (.tail _ (.head _))))
  | whileLoop c body inc => exact h.runLoop (h.whileTurn c (hs body (.head _)) inc)
  | doWhile body c => exact h.runLoop (h.doTurn (hs body (.head _)) c)
  | breakLoop line | continueLoop line =>
    refine h.bind (h.lift .getContext) fun c => ?_
    exact h.ite (h.bind (h.lift (.fail _ _)) fun _ => h.pure _) (h.pure _)
  | returnValue line value =>
    cases value with
    | none => exact h.pure _
    | some e => exact h.bind (h.evaluate e) fun _ => h.pure _
  | function d =>
    refine h.bind (h.lift .currentFrame) fun frame => ?_
    refine h.bind (h.lift (.newFunction _ _ _)) fun _ => ?_
    exact h.bind (h.lift (.define _ _ _ _)) fun _ => h.pure _
  | classDecl name superclass methods statics =>
    exact h.bind (h.declareClass name superclass methods statics) fun _ => h.pure _
  | importFile line path => exact h.bind (himport line path rfl) fun _ => h.pure _

end Parts

/-- The relation holds of the evaluators for the parts of a node. -/
structure Related (R : ∀ ⦃α : Type⦄, Watched ν α → Watched μ α → Prop) (inner : Inner ν)
    (other : Inner μ) : Prop extends Respects R inner.observer other.observer where
  turns {α : Type} {x : Watched ν (Option α)} {y : Watched μ (Option α)} : R x y →
    R (Watched.loop x inner.fuel) (Watched.loop y other.fuel)
  evaluate (e : Expr) : R (inner.evaluate e) (other.evaluate e)
  execute (s : Stmt) : R (inner.execute s) (other.execute s)

namespace Related

variable {R : ∀ ⦃α : Type⦄, Watched ν α → Watched μ α → Prop} {inner : Inner ν} {other : Inner μ}
  (h : Related R inner other)
include h

theorem runAll (ss : List Stmt) : R (inner.runAll ss) (other.runAll ss) :=
  h.recovers.runAll fun s _ => h.execute s

theorem runImported (place : Place) (declarations : List Stmt) :
    R (inner.runImported place declarations) (other.runImported place declarations) := by
  unfold Inner.runImported
  exact h.inContext (fun _ => rfl) (h.runAll declarations)

theorem parts : Parts R (fun _ => True) inner other where
  toComposes := h.recovers.toComposes
  turns := h.turns
  evaluate := h.evaluate
  execute s _ := h.execute s
  runBody f args := h.enterCall _ (h.recovers.openCall f args) (h.runAll _)

theorem evaluateExpr (e : Expr) : R (inner.evaluateExpr e) (other.evaluateExpr e) := h.parts.evaluateExpr e

theorem executeStmt (s : Stmt) : R (inner.executeStmt s) (other.executeStmt s) :=
  h.parts.executeStmt (fun _ _ => trivial) fun line path _ => h.recovers.importFile h.runImported line path

end Related

end Inner

/-! ## Whole runs -/

namespace Respects

variable {R : ∀ ⦃α : Type⦄, Watched ν α → Watched μ α → Prop} {o : Observer ν} {p : Observer μ}
  (hR : Respects R o p)
include hR

theorem loop {x : Watched ν (Option α)} {y : Watched μ (Option α)} (h : R x y) (fuel : Nat) :
    R (Watched.loop x fuel) (Watched.loop y fuel) :=
  hR.recovers.loop h fuel

theorem watch (fuel : Nat) :
    (∀ e, R (watchExpr o fuel e) (watchExpr p fuel e)) ∧
      (∀ s, R (watchStmt o fuel s) (watchStmt p fuel s)) := by
  induction fuel with
  | zero => exact ⟨fun _ => hR.throw _, fun _ => hR.throw _⟩
  | succ n ih =>
    have parts : Inner.Related R (innerAt o n) (innerAt p n) := ⟨hR, fun h => hR.loop h n, ih.1, ih.2⟩
    exact ⟨fun e => hR.bind (hR.tell _) fun _ => parts.evaluateExpr e,
      fun s => hR.bind (hR.tell _) fun _ => parts.executeStmt s⟩

theorem watchAll (fuel : Nat) (statements : List Stmt) :
    R (watchAll o fuel statements) (watchAll p fuel statements) := by
  induction statements with
  | nil => exact hR.pure _
  | cons s ss ih => exact hR.bind ((hR.watch fuel).2 s) fun _ => ih

theorem watchText (fuel : Nat) (statements : List Stmt) :
    R (watchText o fuel statements) (watchText p fuel statements) :=
  hR.bind (hR.tell _) fun _ => hR.watchAll fuel statements

end Respects

end Scriptlet
