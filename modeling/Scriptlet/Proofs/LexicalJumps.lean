import Scriptlet.Proofs.BindingsKept
import Scriptlet.Proofs.ScopeInvariant
import Scriptlet.Proofs.Twins

/-!
# Jumps are lexical

A machine counts the loops around the running statement. Here are runs that need no such count: the loops of one body
are numbered from the outside in, a `break` or `continue` names the innermost loop that its text has around it, and
a loop takes up only what names it. Runs of both kinds are the same. So the count is always the number of loops
around a statement in its own body, and no jump leaves a body.
-/
namespace Scriptlet

variable {α β ν : Type}

/-! ## Runs with numbered loops -/

/-- How a statement ends; a jump names its loop. -/
inductive Jump where
  | normal
  | breaking (loop : Nat)
  | continuing (loop : Nat)
  | returning (value : Value)

namespace Jump

/-- How the statement ends, without the loop. -/
def flow : Jump → Flow
  | .normal => .normal
  | .breaking _ => .breaking
  | .continuing _ => .continuing
  | .returning value => .returning value

/-- What the end of its body means for a loop: the end of the loop, or else its next turn. -/
def leaving? (loop : Nat) : Jump → Option Jump
  | .normal => none
  | .breaking l => if l = loop then some .normal else some (.breaking l)
  | .continuing l => if l = loop then none else some (.continuing l)
  | .returning value => some (.returning value)

end Jump

namespace Labelled

def runAll (run : Stmt → Watched ν Jump) : List Stmt → Watched ν Jump
  | [] => return .normal
  | s :: ss => do
    match ← run s with
    | .normal => runAll run ss
    | jump => return jump

def runBlock (inner : Inner ν) (run : Stmt → Watched ν Jump) (body : List Stmt) : Watched ν Jump := do
  let frame ← inner.openFrame (.block body) (← Eval.currentFrame)
  inner.inContext (fun c => { c with frame }) (runAll run body)

def whileTurn (inner : Inner ν) (run : Stmt → Watched ν Jump) (loop : Nat) (condition : Expr) (body : Stmt)
    (increment : Option Expr) : Watched ν (Option Jump) := do
  if !(← inner.evaluate condition).isTruthy then return some .normal
  match (← run body).leaving? loop with
  | some jump => return some jump
  | none =>
    inner.evaluateAny increment
    return none

def doTurn (inner : Inner ν) (run : Stmt → Watched ν Jump) (loop : Nat) (body : Stmt) (condition : Expr) :
    Watched ν (Option Jump) := do
  match (← run body).leaving? loop with
  | some jump => return some jump
  | none => if (← inner.evaluate condition).isTruthy then return none else return some .normal

/-- The loops around are still counted, but nothing depends on it. -/
def runLoop (inner : Inner ν) (turn : Watched ν (Option Jump)) : Watched ν Jump :=
  inner.inContext (fun c => { c with loopDepth := c.loopDepth + 1 }) (Watched.loop turn inner.fuel)

/-- Executes a statement that has `depth` loops around it in its body. -/
def executeStmt (inner : Inner ν) (run : (depth : Nat) → Stmt → Watched ν Jump) (depth : Nat) : Stmt → Watched ν Jump
  | .block body => runBlock inner (run depth) body
  | .ifThen c t => do
    if (← inner.evaluate c).isTruthy then run depth t else return .normal
  | .ifElse c t e => do
    if (← inner.evaluate c).isTruthy then run depth t else run depth e
  | .whileLoop c body inc => runLoop inner (whileTurn inner (run (depth + 1)) (depth + 1) c body inc)
  | .doWhile body c => runLoop inner (doTurn inner (run (depth + 1)) (depth + 1) body c)
  | .breakLoop line => if depth = 0 then Eval.fail line .breakOutsideLoop else return .breaking depth
  | .continueLoop line => if depth = 0 then Eval.fail line .continueOutsideLoop else return .continuing depth
  | .returnValue _ value => do
    match value with
    | some e => return .returning (← inner.evaluate e)
    | none => return .returning .null
  | s => do
    let _ ← inner.executeStmt s
    return .normal

mutual

/-- Evaluates an expression. The bodies of functions and imported files have no loops around them. -/
def evaluate (observer : Observer ν) : (fuel : Nat) → Expr → Watched ν Value
  | 0, _ => throw .outOfFuel
  | n + 1, e => do
    Watched.tell observer (.evaluating e)
    Inner.evaluateExpr ⟨n, observer, evaluate observer n, fun s => Jump.flow <$> execute observer n 0 s⟩ e

def execute (observer : Observer ν) : (fuel : Nat) → (depth : Nat) → Stmt → Watched ν Jump
  | 0, _, _ => throw .outOfFuel
  | n + 1, depth, s => do
    Watched.tell observer (.executing s)
    executeStmt ⟨n, observer, evaluate observer n, fun s => Jump.flow <$> execute observer n 0 s⟩
      (execute observer n) depth s

end

def executeAll (observer : Observer ν) (fuel : Nat) : List Stmt → Watched ν Unit
  | [] => return ()
  | s :: ss => do
    let _ ← execute observer fuel 0 s
    executeAll observer fuel ss

/-- Executes the statements of one text, which have no loops around them. -/
def executeText (observer : Observer ν) (fuel : Nat) (statements : List Stmt) : Watched ν Unit := do
  Watched.tell observer (.starting statements)
  executeAll observer fuel statements

end Labelled

/-! ## Two runs that are the same -/

/-- Both runs are in the same state, with `depth` loops around. -/
def Coupling.within (ν : Type) (depth : Nat) : Coupling Halt (Machine × ν) where
  state w w' := w' = w ∧ w.1.context.loopDepth = depth
  failure e w e' w' := e' = e ∧ w' = w

/-- Started with `depth` loops around, the runs do the same, and end with related results. -/
abbrev Follows (depth : Nat) (R : α → β → Prop) (x : Watched ν α) (y : Watched ν β) : Prop :=
  Twins (.within ν depth) R x y

/-- The evaluation ends in the context it began in. -/
def Watched.Rests (x : Watched ν α) : Prop :=
  ∀ w, Meets x w (fun _ w' => w'.1.context = w.1.context) (fun _ w' => w'.1.context = w.1.context)

namespace Follows

variable {depth : Nat} {R : α → β → Prop} {x : Watched ν α} {y : Watched ν β}

theorem same (hx : x.Rests) : Follows depth Eq x x := by
  rintro _ w ⟨rfl, hd⟩
  have rests := hx w
  unfold Meets at rests
  cases h : x w with
  | ok a w' =>
    rw [h] at rests
    exact .ok rfl ⟨rfl, by rw [rests]; exact hd⟩
  | error e w' => exact .error ⟨rfl, rfl⟩

theorem eq {y : Watched ν α} (h : Follows depth Eq x y) {w : Machine × ν} (hd : w.1.context.loopDepth = depth) :
    y w = x w := by
  obtain ⟨a, a', w', w'', hr, hr', ha, hw, -⟩ | ⟨e, e', w', w'', hr, hr', he, hw⟩ := (h w w ⟨rfl, hd⟩).cases
  · rw [hr, hr', ha, hw]
  · rw [hr, hr', he, hw]

theorem meets (h : Follows depth R x y) {w : Machine × ν} (hd : w.1.context.loopDepth = depth) {Q : α → Prop}
    (hq : ∀ a b, R a b → Q a) : Meets x w (fun a _ => Q a) fun _ _ => True := by
  unfold Meets
  obtain ⟨a, a', w', w'', hr, -, ha, -⟩ | ⟨e, e', w', w'', hr, -⟩ := (h w w ⟨rfl, hd⟩).cases
  · rw [hr]
    exact hq a a' ha
  · rw [hr]
    trivial

theorem inContext (o : Observer ν) {change : Context → Context} {inside : Nat}
    (hc : ∀ c, c.loopDepth = depth → (change c).loopDepth = inside) (h : Follows inside R x y) :
    Follows depth R (Watched.inContext o change x) (Watched.inContext o change y) := by
  rintro ⟨m, n⟩ _ ⟨rfl, hd⟩
  have entered := h (m.withContext (change m.context), o ⟨.entering, m.withContext (change m.context)⟩ n) _
    ⟨rfl, hc _ hd⟩
  unfold Watched.inContext
  dsimp only
  obtain ⟨a, a', w, w', hr, hr', ha, rfl, -⟩ | ⟨e, _, w, _, hr, hr', rfl, rfl⟩ := entered.cases
  · rw [hr, hr']
    exact .ok ha ⟨rfl, hd⟩
  · rw [hr, hr']
    exact .error ⟨rfl, rfl⟩

theorem outOfFuel : Follows depth R (throw .outOfFuel : Watched ν α) (throw .outOfFuel : Watched ν β) :=
  .throw fun _ _ h => ⟨rfl, h.1⟩

theorem loop {turn : Watched ν (Option α)} {turn' : Watched ν (Option β)}
    (h : Follows depth (Option.Rel R) turn turn') (fuel : Nat) :
    Follows depth R (Watched.loop turn fuel) (Watched.loop turn' fuel) := by
  induction fuel with
  | zero => exact outOfFuel
  | succ n ih =>
    apply h.bind
    intro r r' hr
    cases hr with
    | none => exact ih
    | some ha => exact .pure ha

end Follows

/-- Evaluations that do the same outside of loops do the same where all loops are left. -/
theorem Watched.inContext_congr (o : Observer ν) {change : Context → Context} (hc : ∀ c, (change c).loopDepth = 0)
    {x y : Watched ν α} (h : Follows 0 Eq x y) : Watched.inContext o change y = Watched.inContext o change x := by
  funext ⟨m, n⟩
  have inside : Follows m.context.loopDepth Eq (Watched.inContext o change x) (Watched.inContext o change y) :=
    Follows.inContext o (fun c _ => hc c) h
  exact inside.eq rfl

/-! ## Evaluations that put the context back -/

theorem Watched.Rests.lift {x : Eval α} (hx : x.Stepwise) : (liftM x : Watched ν α).Rests := by
  intro w
  exact meets_unseen (Meets.mono (hx w.1) (fun _ _ h => h.context.1) fun _ _ h => h.context.1)

theorem Inner.openFrame_rests (inner : Inner ν) (region : Region) (enclosing : FrameId) :
    (inner.openFrame region enclosing).Rests := fun _ => rfl

theorem Watched.Rests.of_returns {x : Watched ν α} (h : ∀ limit, x.Returns limit fun _ => True) : x.Rests := by
  intro w
  have run := h (max w.1.settings.maxCallDepth w.1.context.callDepth) w.1 w.2 (Nat.le_max_left _ _)
    (Nat.le_max_right _ _) trivial
  exact run.mono (fun _ _ h => h.1) fun _ _ h => h.1

theorem rests_watchText (o : Observer ν) (fuel : Nat) (statements : List Stmt) :
    (watchText o fuel statements).Rests :=
  .of_returns fun _ => (Watched.Returns.respects fun _ _ _ _ => trivial).watchText fuel statements

/-- Runs of expressions and the rules for statements put the context back, whoever watches. -/
theorem rests_innerAt (o : Observer ν) (fuel : Nat) :
    (∀ e, (watchExpr o fuel e).Rests) ∧ (∀ s, ((innerAt o fuel).executeStmt s).Rests) := by
  have respects (limit : Nat) : Respects (fun _ x (_ : Watched ν _) => x.Returns limit fun _ => True) o o :=
    Watched.Returns.respects fun _ _ _ _ => trivial
  have parts (limit : Nat) : Inner.Related (fun _ x (_ : Watched ν _) => x.Returns limit fun _ => True)
      (innerAt o fuel) (innerAt o fuel) :=
    ⟨respects limit, fun {_ _ y} h => (respects limit).loop (y := y) h fuel, ((respects limit).watch fuel).1,
      ((respects limit).watch fuel).2⟩
  exact ⟨fun e => .of_returns fun limit => (parts limit).evaluate e,
    fun s => .of_returns fun limit => (parts limit).executeStmt s⟩

/-! ## Bodies outside of loops -/

namespace Inner

/-- Other runs of the statements in bodies. -/
def withBodies (inner : Inner ν) (run : Stmt → Watched ν Flow) : Inner ν := { inner with execute := run }

variable {inner : Inner ν} {run : Stmt → Watched ν Flow}

theorem evaluateAll_withBodies (es : List Expr) : (inner.withBodies run).evaluateAll es = inner.evaluateAll es := by
  induction es with
  | nil => rfl
  | cons e es ih =>
    unfold evaluateAll
    rw [ih]
    rfl

theorem evaluateSuperclass_withBodies (superclass : Option Variable) :
    (inner.withBodies run).evaluateSuperclass superclass = inner.evaluateSuperclass superclass := by
  cases superclass <;> rfl

theorem openClass_withBodies (declaration : Stmt) (frame : FrameId) (parent : Option ClassObject) :
    (inner.withBodies run).openClass declaration frame parent = inner.openClass declaration frame parent := by
  cases parent <;> rfl

theorem declareClass_withBodies (name : Name) (superclass : Option Variable) (methods statics : List FunctionDecl) :
    (inner.withBodies run).declareClass name superclass methods statics =
      inner.declareClass name superclass methods statics := by
  unfold declareClass makeClass
  rw [evaluateSuperclass_withBodies]
  simp only [openClass_withBodies]
  rfl

variable (h : ∀ s, Follows 0 Eq (inner.execute s) (run s))
include h

theorem runAll_withBodies (ss : List Stmt) :
    Follows 0 Eq (inner.runAll ss) ((inner.withBodies run).runAll ss) := by
  induction ss with
  | nil => exact .pure rfl
  | cons s ss ih =>
    apply (h s).bind
    rintro flow _ rfl
    cases flow with
    | normal => exact ih
    | breaking | continuing | returning => exact .pure rfl

theorem runBody_withBodies (f : FunctionObject) (args : List Value) :
    (inner.withBodies run).runBody f args = inner.runBody f args := by
  unfold runBody
  congr 1
  funext _
  congr 1
  funext frame
  exact Watched.inContext_congr inner.observer (fun _ => rfl) (runAll_withBodies h f.declaration.body)

theorem callFunction_withBodies (f : FunctionObject) (args : List Value) :
    (inner.withBodies run).callFunction f args = inner.callFunction f args := by
  unfold callFunction
  rw [runBody_withBodies h]

theorem callValue_withBodies (callee : Value) (line : Nat) (args : List Value) :
    (inner.withBodies run).callValue callee line args = inner.callValue callee line args := by
  unfold callValue
  simp only [callFunction_withBodies h]
  rfl

theorem evaluateExpr_withBodies (e : Expr) : (inner.withBodies run).evaluateExpr e = inner.evaluateExpr e := by
  cases e with
  | array es =>
    change (inner.withBodies run).evaluateAll es >>= _ = _
    rw [evaluateAll_withBodies]
    rfl
  | call f line args =>
    change (do
      let callee ← inner.evaluate f
      let values ← (inner.withBodies run).evaluateAll args
      (inner.withBodies run).callValue callee line values) = _
    simp only [evaluateAll_withBodies, callValue_withBodies h]
    rfl
  | _ => rfl

theorem runImported_withBodies (place : Place) (declarations : List Stmt) :
    (inner.withBodies run).runImported place declarations = inner.runImported place declarations := by
  unfold runImported
  exact Watched.inContext_congr inner.observer (fun _ => rfl) (runAll_withBodies h declarations)

theorem importFile_withBodies (line : Nat) (path : String) :
    (inner.withBodies run).importFile line path = inner.importFile line path := by
  have source (place : Place) (text : Except SourceError String) :
      (inner.withBodies run).importSource line path place text = inner.importSource line path place text := by
    cases text with
    | error e => rfl
    | ok text =>
      unfold importSource runDeclarations
      simp only [runImported_withBodies h]
      rfl
  unfold importFile
  simp only [source]

/-- Statements without statements in them see no difference. -/
theorem executeStmt_withBodies {s : Stmt} (hs : s.branches = []) (hb : ∀ body, s ≠ .block body) :
    (inner.withBodies run).executeStmt s = inner.executeStmt s := by
  cases s with
  | block body => exact absurd rfl (hb body)
  | ifThen | ifElse | whileLoop | doWhile => cases hs
  | classDecl name superclass methods statics =>
    change (inner.withBodies run).declareClass name superclass methods statics >>= _ = _
    rw [declareClass_withBodies]
    rfl
  | importFile line path =>
    change (inner.withBodies run).importFile line path >>= _ = _
    rw [importFile_withBodies h]
    rfl
  | letDecl name init => cases init <;> rfl
  | returnValue line value => cases value <;> rfl
  | _ => rfl

end Inner

/-! ## Statements and the loops around them -/

namespace Stmt

mutual

/-- A `return` stands in the statement, outside of functions. -/
def returns : Stmt → Bool
  | .block body => anyReturns body
  | .ifThen _ t => returns t
  | .ifElse _ t e => returns t || returns e
  | .whileLoop _ body _ | .doWhile body _ => returns body
  | .returnValue .. => true
  | _ => false

def anyReturns : List Stmt → Bool
  | [] => false
  | s :: ss => returns s || anyReturns ss

end

theorem anyReturns_eq_false {ss : List Stmt} : anyReturns ss = false ↔ ∀ s ∈ ss, s.returns = false := by
  induction ss with
  | nil => simp [anyReturns]
  | cons s ss ih => simp [anyReturns, ih]

end Stmt

namespace Jump

/-- Jumps that can come from a statement with `depth` loops around it. -/
def Within (depth : Nat) (returns : Bool) : Jump → Prop
  | .normal => True
  | .breaking loop | .continuing loop => loop = depth ∧ 0 < depth
  | .returning _ => returns = true

theorem Within.mono {depth : Nat} {r r' : Bool} {jump : Jump} (h : jump.Within depth r) (hr : r = true → r' = true) :
    jump.Within depth r' := by
  cases jump with
  | normal => trivial
  | breaking | continuing => exact h
  | returning => exact hr h

/-- The flow is that of a jump that can come from a statement. -/
def Erased (depth : Nat) (returns : Bool) (flow : Flow) (jump : Jump) : Prop :=
  flow = jump.flow ∧ jump.Within depth returns

theorem Erased.mono {depth : Nat} {r r' : Bool} (hr : r = true → r' = true) {flow : Flow} {jump : Jump}
    (h : Erased depth r flow jump) : Erased depth r' flow jump := ⟨h.1, h.2.mono hr⟩

/-- Outside of loops there is nothing to jump to. -/
theorem Erased.outside {r : Bool} {flow : Flow} {jump : Jump} (h : Erased 0 r flow jump) :
    flow = .normal ∨ r = true ∧ ∃ v, flow = .returning v := by
  obtain ⟨rfl, hw⟩ := h
  cases jump with
  | normal => exact .inl rfl
  | breaking | continuing => exact absurd hw.2 (Nat.lt_irrefl 0)
  | returning v => exact .inr ⟨hw, v, rfl⟩

end Jump

/-- Whatever comes out in the end is normal. -/
def Watched.EndsNormal (x : Watched ν Flow) : Prop := ∀ w, Meets x w (fun flow _ => flow = .normal) fun _ _ => True

theorem Watched.EndsNormal.after {x : Watched ν α} {f : α → Watched ν Flow} (h : ∀ a, (f a).EndsNormal) :
    (x >>= f).EndsNormal := Meets.after h

theorem Watched.EndsNormal.pure : (Pure.pure .normal : Watched ν Flow).EndsNormal := fun _ => rfl

theorem Watched.EndsNormal.ite {c : Prop} [Decidable c] {x y : Watched ν Flow} (hx : x.EndsNormal)
    (hy : y.EndsNormal) : (if c then x else y).EndsNormal := by
  split
  · exact hx
  · exact hy

theorem Follows.normal {x : Watched ν Flow} (hr : x.Rests) (hn : x.EndsNormal) (depth : Nat) (r : Bool) :
    Follows depth (Jump.Erased depth r) x (x >>= fun _ => Pure.pure .normal) := by
  rintro _ w ⟨rfl, hd⟩
  have rests := hr w
  have ends := hn w
  change (Coupling.within ν depth).Ends _ (x w) (EStateM.bind x (fun _ => Pure.pure Jump.normal) w)
  rw [EStateM.bind]
  unfold Meets at rests ends
  cases h : x w with
  | ok flow w' =>
    rw [h] at rests ends
    exact .ok ⟨ends, trivial⟩ ⟨rfl, by rw [rests]; exact hd⟩
  | error e w' => exact .error ⟨rfl, rfl⟩

theorem Follows.erase {depth : Nat} {r : Bool} {x : Watched ν Flow} {y : Watched ν Jump}
    (h : Follows depth (Jump.Erased depth r) x y) : Follows depth Eq x (Jump.flow <$> y) := by
  rintro _ w ⟨rfl, hd⟩
  change (Coupling.within ν depth).Ends Eq (x w) (EStateM.map Jump.flow y w)
  rw [EStateM.map]
  obtain ⟨a, a', w', w'', hr, hr', ha, hw⟩ | ⟨e, e', w', w'', hr, hr', he⟩ := (h w w ⟨rfl, hd⟩).cases
  · rw [hr, hr']
    exact .ok ha.1 hw
  · rw [hr, hr']
    exact .error he

namespace Labelled

/-- The evaluators for the parts of a node put the context back, and the given runs with numbered loops are the same
as theirs. -/
structure Agrees (inner : Inner ν) (run : (depth : Nat) → Stmt → Watched ν Jump) : Prop where
  evaluate (e : Expr) : (inner.evaluate e).Rests
  executeStmt (s : Stmt) : (inner.executeStmt s).Rests
  execute (depth : Nat) (s : Stmt) : Follows depth (Jump.Erased depth s.returns) (inner.execute s) (run depth s)

namespace Agrees

variable {inner : Inner ν} {run : (depth : Nat) → Stmt → Watched ν Jump} (h : Agrees inner run)
include h

theorem runAll (depth : Nat) (ss : List Stmt) :
    Follows depth (Jump.Erased depth (Stmt.anyReturns ss)) (inner.runAll ss) (Labelled.runAll (run depth) ss) := by
  induction ss with
  | nil => exact .pure ⟨rfl, trivial⟩
  | cons s ss ih =>
    have left (h : s.returns = true) : Stmt.anyReturns (s :: ss) = true := by simp [Stmt.anyReturns, h]
    have right (h : Stmt.anyReturns ss = true) : Stmt.anyReturns (s :: ss) = true := by simp [Stmt.anyReturns, h]
    apply (h.execute depth s).bind
    rintro _ jump ⟨rfl, hw⟩
    cases jump with
    | normal => exact ih.mono fun _ _ => .mono right
    | breaking | continuing => exact .pure ⟨rfl, hw⟩
    | returning v => exact .pure ⟨rfl, left hw⟩

theorem evaluateAny (e : Option Expr) : (inner.evaluateAny e).Rests := by
  cases e with
  | none => exact fun _ => rfl
  | some e => exact fun w => (h.evaluate e w).bind fun _ _ h => h

theorem whileTurn (depth : Nat) (c : Expr) (body : Stmt) (inc : Option Expr) :
    Follows (depth + 1) (Option.Rel (Jump.Erased depth body.returns)) (inner.whileTurn c body inc)
      (Labelled.whileTurn inner (run (depth + 1)) (depth + 1) c body inc) := by
  apply (Follows.same (h.evaluate c)).bind
  rintro v _ rfl
  apply Twins.ite Iff.rfl (.pure (.some ⟨rfl, trivial⟩))
  apply (h.execute (depth + 1) body).bind
  have again : Follows (depth + 1) (Option.Rel (Jump.Erased depth body.returns))
      (do inner.evaluateAny inc; return none) (do inner.evaluateAny inc; return none) :=
    (Follows.same (h.evaluateAny inc)).bind fun _ _ _ => .pure .none
  rintro _ jump ⟨rfl, hw⟩
  cases jump with
  | normal => exact again
  | breaking l =>
    rw [hw.1, Jump.leaving?, if_pos rfl]
    exact .pure (.some ⟨rfl, trivial⟩)
  | continuing l =>
    rw [hw.1, Jump.leaving?, if_pos rfl]
    exact again
  | returning v => exact .pure (.some ⟨rfl, hw⟩)

theorem doTurn (depth : Nat) (body : Stmt) (c : Expr) :
    Follows (depth + 1) (Option.Rel (Jump.Erased depth body.returns)) (inner.doTurn body c)
      (Labelled.doTurn inner (run (depth + 1)) (depth + 1) body c) := by
  apply (h.execute (depth + 1) body).bind
  have again : Follows (depth + 1) (Option.Rel (Jump.Erased depth body.returns))
      (do if (← inner.evaluate c).isTruthy then return none else return some .normal)
      (do if (← inner.evaluate c).isTruthy then return none else return some .normal) := by
    apply (Follows.same (h.evaluate c)).bind
    rintro v _ rfl
    exact .ite Iff.rfl (.pure .none) (.pure (.some ⟨rfl, trivial⟩))
  rintro _ jump ⟨rfl, hw⟩
  cases jump with
  | normal => exact again
  | breaking l =>
    rw [hw.1, Jump.leaving?, if_pos rfl]
    exact .pure (.some ⟨rfl, trivial⟩)
  | continuing l =>
    rw [hw.1, Jump.leaving?, if_pos rfl]
    exact again
  | returning v => exact .pure (.some ⟨rfl, hw⟩)

omit h in
theorem runLoop {depth : Nat} {r : Bool} {turn : Watched ν (Option Flow)} {turn' : Watched ν (Option Jump)}
    (ht : Follows (depth + 1) (Option.Rel (Jump.Erased depth r)) turn turn') :
    Follows depth (Jump.Erased depth r) (inner.runLoop turn) (Labelled.runLoop inner turn') := by
  unfold Inner.runLoop Labelled.runLoop
  exact Follows.inContext inner.observer (fun _ hc => congrArg (· + 1) hc) (Follows.loop ht inner.fuel)

theorem runBlock (depth : Nat) (body : List Stmt) :
    Follows depth (Jump.Erased depth (Stmt.anyReturns body)) (inner.runBlock body)
      (Labelled.runBlock inner (run depth) body) := by
  apply (Follows.same (.lift Eval.Quiet.currentFrame.stepwise)).bind
  rintro current _ rfl
  apply (Follows.same (inner.openFrame_rests _ current)).bind
  rintro frame _ rfl
  exact Follows.inContext inner.observer (fun _ hc => hc) (h.runAll depth body)

/-- The evaluators of numbered runs for the parts of a node. -/
theorem withBodies (s : Stmt) : Follows 0 Eq (inner.execute s) (Jump.flow <$> run 0 s) := (h.execute 0 s).erase

/-- A statement that is run as it is and ends normally. -/
theorem plain (depth : Nat) {s : Stmt} (hs : s.branches = []) (hb : ∀ body, s ≠ .block body)
    (hn : (inner.executeStmt s).EndsNormal) :
    Follows depth (Jump.Erased depth s.returns) (inner.executeStmt s) (do
      let _ ← (inner.withBodies fun s => Jump.flow <$> run 0 s).executeStmt s
      return .normal) := by
  rw [Inner.executeStmt_withBodies h.withBodies hs hb]
  exact .normal (h.executeStmt s) hn depth s.returns

omit h in
/-- A jump out of the innermost loop, or a fault where there is none. -/
theorem leave (depth : Nat) (r : Bool) (line : Nat) (f : Fault) {flow : Flow} {jump : Jump} (hf : flow = jump.flow)
    (hj : 0 < depth → jump.Within depth r) :
    Follows depth (Jump.Erased depth r)
      (do
        if (← (Eval.getContext : Watched ν Context)).loopDepth = 0 then Eval.fail line f
        return flow : Watched ν Flow)
      (if depth = 0 then Eval.fail line f else return jump : Watched ν Jump) := by
  rintro _ w ⟨rfl, hd⟩
  have counted : (do
        if (← (Eval.getContext : Watched ν Context)).loopDepth = 0 then Eval.fail line f
        return flow : Watched ν Flow) w =
      (if w.1.context.loopDepth = 0 then (do
          Eval.fail line f
          return flow)
        else return flow : Watched ν Flow) w := rfl
  rw [counted, hd]
  by_cases h0 : depth = 0
  · rw [if_pos h0, if_pos h0]
    exact .error ⟨rfl, rfl⟩
  · rw [if_neg h0, if_neg h0]
    exact .ok ⟨hf, hj (Nat.pos_of_ne_zero h0)⟩ ⟨rfl, hd⟩

theorem node (depth : Nat) (s : Stmt) :
    Follows depth (Jump.Erased depth s.returns) (inner.executeStmt s)
      (Labelled.executeStmt (inner.withBodies fun s => Jump.flow <$> run 0 s) run depth s) := by
  cases s with
  | expression =>
    refine h.plain depth rfl (fun _ => nofun) ?_
    exact .after fun _ => .after fun _ => .ite (.after fun _ => .pure) .pure
  | print =>
    refine h.plain depth rfl (fun _ => nofun) ?_
    exact .after fun _ => .after fun _ => .pure
  | letDecl | constDecl | function =>
    refine h.plain depth rfl (fun _ => nofun) ?_
    exact .after fun _ => .after fun _ => .after fun _ => .pure
  | classDecl | importFile =>
    refine h.plain depth rfl (fun _ => nofun) ?_
    exact .after fun _ => .pure
  | block body => exact h.runBlock depth body
  | ifThen c t =>
    apply (Follows.same (h.evaluate c)).bind
    rintro v _ rfl
    exact .ite Iff.rfl (h.execute depth t) (.pure ⟨rfl, trivial⟩)
  | ifElse c t e =>
    apply (Follows.same (h.evaluate c)).bind
    rintro v _ rfl
    apply Twins.ite Iff.rfl
    · exact (h.execute depth t).mono fun _ _ => .mono fun ht => by simp [Stmt.returns, ht]
    · exact (h.execute depth e).mono fun _ _ => .mono fun ht => by simp [Stmt.returns, ht]
  | whileLoop c body inc => exact runLoop (h.whileTurn depth c body inc)
  | doWhile body c => exact runLoop (h.doTurn depth body c)
  | breakLoop line => exact leave depth _ line _ rfl fun hd => ⟨rfl, hd⟩
  | continueLoop line => exact leave depth _ line _ rfl fun hd => ⟨rfl, hd⟩
  | returnValue line value =>
    cases value with
    | none => exact .pure ⟨rfl, rfl⟩
    | some e =>
      apply (Follows.same (h.evaluate e)).bind
      rintro v _ rfl
      exact .pure ⟨rfl, rfl⟩

end Agrees

/-- By induction on the fuel, all runs agree. -/
theorem agrees_innerAt (o : Observer ν) (fuel : Nat) :
    evaluate o fuel = watchExpr o fuel ∧ Agrees (innerAt o fuel) (execute o fuel) := by
  obtain ⟨restsExpr, restsStmt⟩ := rests_innerAt o fuel
  induction fuel with
  | zero => exact ⟨rfl, restsExpr, restsStmt, fun _ _ => Follows.outOfFuel⟩
  | succ n ih =>
    obtain ⟨same, agrees⟩ := ih (rests_innerAt o n).1 (rests_innerAt o n).2
    have parts : (⟨n, o, evaluate o n, fun s => Jump.flow <$> execute o n 0 s⟩ : Inner ν) =
        (innerAt o n).withBodies fun s => Jump.flow <$> execute o n 0 s := by
      rw [same]
      rfl
    refine ⟨?_, restsExpr, restsStmt, fun depth s => ?_⟩
    · funext e
      rw [evaluate, parts, Inner.evaluateExpr_withBodies agrees.withBodies, watchExpr]
      rfl
    · have told : Follows depth Eq (Watched.tell o (.executing s)) (Watched.tell o (.executing s)) :=
        .same fun _ => rfl
      change Follows depth _ (watchStmt o (n + 1) s) _
      rw [execute, parts, watchStmt]
      exact told.bind fun _ _ _ => agrees.node depth s

theorem executeText_follows (o : Observer ν) (fuel : Nat) (statements : List Stmt) :
    Follows 0 Eq (watchText o fuel statements) (executeText o fuel statements) := by
  have all (ss : List Stmt) : Follows 0 Eq (watchAll o fuel ss) (executeAll o fuel ss) := by
    induction ss with
    | nil => exact .pure rfl
    | cons s ss ih => exact ((agrees_innerAt o fuel).2.execute 0 s).bind fun _ _ _ => ih
  have told : Follows 0 Eq (Watched.tell o (.starting statements)) (Watched.tell o (.starting statements)) :=
    .same fun _ => rfl
  exact told.bind fun _ _ _ => all statements

/-- A body that is run outside of loops ends normally or returns. -/
theorem body_outside (o : Observer ν) (fuel : Nat) {change : Context → Context} (hc : ∀ c, (change c).loopDepth = 0)
    (ss : List Stmt) (w : Machine × ν) : Meets ((innerAt o fuel).inContext change ((innerAt o fuel).runAll ss)) w
      (fun flow _ => flow = .normal ∨ ∃ v, flow = .returning v) fun _ _ => True := by
  apply Watched.meets_inContext
  exact ((agrees_innerAt o fuel).2.runAll 0 ss).meets (hc _) fun _ _ h => h.outside.imp_right And.right

/-- Without a `return`, a statement that is run outside of loops ends normally. -/
theorem statement_outside (o : Observer ν) (fuel : Nat) {s : Stmt} (hr : s.returns = false) {w : Machine × ν}
    (hd : w.1.context.loopDepth = 0) : Meets (watchStmt o fuel s) w (fun flow _ => flow = .normal) fun _ _ => True := by
  have ends (flow : Flow) (jump : Jump) (h : Jump.Erased 0 s.returns flow jump) : flow = .normal := by
    rcases h.outside with normal | ⟨returns, -⟩
    · exact normal
    · cases hr.symm.trans returns
  exact ((agrees_innerAt o fuel).2.execute 0 s).meets hd ends

end Labelled

/-! ## Returns stand in functions -/

namespace Analysis

theorem problems_of_returnProblems {around : Surroundings} (ha : around.routine = .none) (line : Nat)
    (value : Option Expr) (st : State) : (exec (returnProblems around line value) st).problems ≠ [] := by
  have second : Effect [] id (if value.isSome && around.routine = .initializer then
      report line "return" .returnFromInitializer else return ()) :=
    .ite (report_effect _ _ _) .nothing
  have taken : returnProblems around line value = (do
      report line "return" .returnOutsideFunction
      if value.isSome && around.routine = .initializer then
        report line "return" .returnFromInitializer) := if_pos ha
  rw [taken]
  exact fun h => problems_of_report _ _ _ st (second.problems _ h)

mutual

/-- Outside of functions the analysis accepts no `return`. -/
theorem returns_of_visitStmt {around : Surroundings} (ha : around.routine = .none) (s : Stmt) {st : State}
    (h : (exec (visitStmt around s) st).problems = []) : s.returns = false := by
  match s with
  | .block body => exact anyReturns_of_visitStmts ha body (closeScope_effect.problems _ h)
  | .ifThen c t => exact returns_of_visitStmt ha t h
  | .ifElse c t e =>
    have last := returns_of_visitStmt ha e h
    have first := returns_of_visitStmt ha t ((visitStmt_changes around e).problems _ h)
    simp [Stmt.returns, first, last]
  | .whileLoop c body inc => exact returns_of_visitStmt ha body ((visitOptional_effect around inc).problems _ h)
  | .doWhile body c => exact returns_of_visitStmt ha body ((visitExpr_effect around c).problems _ h)
  | .returnValue line value =>
    have checked := (visitOptional_effect around value).problems _ h
    exact absurd checked (problems_of_returnProblems ha line value _)
  | .expression _ | .print _ | .letDecl .. | .constDecl .. | .function _ | .classDecl .. | .breakLoop _
  | .continueLoop _ | .importFile .. => rfl

theorem anyReturns_of_visitStmts {around : Surroundings} (ha : around.routine = .none) (ss : List Stmt)
    {st : State} (h : (exec (visitStmts around ss) st).problems = []) :
    Stmt.anyReturns ss = false := by
  match ss with
  | [] => rfl
  | s :: ss =>
    have rest := anyReturns_of_visitStmts ha ss h
    have first := returns_of_visitStmt ha s ((visitStmts_changes around ss).problems _ h)
    simp [Stmt.anyReturns, first, rest]

end

end Analysis

/-! ## Sessions -/

namespace Session

theorem returns_of_prepareText {text : String} {s s' : Session} {statements : List Stmt}
    (h : prepareText text s = .ok (some statements) s') : ∀ statement ∈ statements, statement.returns = false := by
  rcases prepareText_cases text s with ⟨-, result⟩ | ⟨-, -, result⟩ | ⟨-, analysed, result⟩
  · cases result.symm.trans h
  · cases result.symm.trans h
  · cases result.symm.trans h
    have problems := List.isEmpty_iff.1 analysed
    exact Stmt.anyReturns_eq_false.1 (Analysis.anyReturns_of_visitStmts rfl _ problems)

theorem runStatements_context (fuel : Nat) (statements : List Stmt) (s : Session) :
    (final (runStatements fuel statements s)).machine.context = s.machine.context := by
  have reported := runStatements_machine fuel statements s []
  have rests := rests_watchText .recorder fuel statements (s.machine, [])
  unfold Meets at rests
  rw [reported.context]
  cases h : watchText .recorder fuel statements (s.machine, []) with
  | ok a w => rw [h] at rests; exact rests
  | error e w => rw [h] at rests; exact rests

theorem runText_context (fuel : Nat) (text : String) (s : Session) :
    (final (runText fuel text s)).machine.context = s.machine.context := by
  obtain ⟨r, s', prepared⟩ := prepareText_ends text s
  have steps := (prepareText_steps prepared).context.1
  rw [runText_eq prepared]
  cases r with
  | none => exact steps
  | some statements => exact (runStatements_context fuel statements s').trans steps

/-- Between two texts a session is outside of all loops. -/
theorem Reachable.loopDepth {s : Session} (h : Reachable s) : s.machine.context.loopDepth = 0 := by
  induction h with
  | initial => rfl
  | @run s fuel item _ ih =>
    cases item with
    | text source => exact (congrArg Context.loopDepth (runText_context fuel source s)).trans ih
    | script path =>
      rw [runItem_script]
      cases s.machine.files.readSource path with
      | error => exact ih
      | ok source => exact (congrArg Context.loopDepth (runText_context fuel source _)).trans ih
  | outside _ _ _ _ _ _ _ _ ih => exact ih

end Session

/-- Jumps are lexical. A run is the same as the run with numbered loops, where a `break` or `continue` fails just if
its text has no loop around it in the same body, and else is taken up by the innermost such loop. No jump leaves the
body of a function, method or initializer, or an imported file. Every statement of an accepted text, if it ends, ends
normally. -/
theorem jumps_lexical (o : Observer ν) (fuel : Nat) :
    (∀ e, watchExpr o fuel e = Labelled.evaluate o fuel e) ∧
    (∀ s m n, watchStmt o fuel s (m, n) =
      (Jump.flow <$> Labelled.execute o fuel m.context.loopDepth s) (m, n)) ∧
    (∀ f args w, Meets ((innerAt o fuel).runBody f args) w
      (fun flow _ => flow = .normal ∨ ∃ v, flow = .returning v) fun _ _ => True) ∧
    (∀ place declarations w, Meets ((innerAt o fuel).runImported place declarations) w
      (fun flow _ => flow = .normal ∨ ∃ v, flow = .returning v) fun _ _ => True) ∧
    (∀ s : Session, s.Reachable → ∀ text statements s', Session.prepareText text s = .ok (some statements) s' →
      (∀ n, watchText o fuel statements (s'.machine, n) =
        Labelled.executeText o fuel statements (s'.machine, n)) ∧
      ∀ statement ∈ statements, ∀ m n, m.context.loopDepth = 0 →
        Meets (watchStmt o fuel statement) (m, n) (fun flow _ => flow = .normal) fun _ _ => True) := by
  obtain ⟨same, agrees⟩ := Labelled.agrees_innerAt o fuel
  refine ⟨fun e => (congrFun same e).symm, fun s m n => ?_, fun f args w => ?_, fun place ds w => ?_, ?_⟩
  · exact ((agrees.execute m.context.loopDepth s).erase.eq rfl).symm
  · exact Meets.after (fun _ => Meets.after fun _ => Labelled.body_outside o fuel (fun _ => rfl) _) w
  · exact Labelled.body_outside o fuel (fun _ => rfl) ds w
  · intro s hs text statements s' prepared
    have outside : s'.machine.context.loopDepth = 0 := by
      rw [(Session.prepareText_steps prepared).context.1]
      exact hs.loopDepth
    refine ⟨fun n => ((Labelled.executeText_follows o fuel statements).eq outside).symm, ?_⟩
    intro statement hmem m n hd
    exact Labelled.statement_outside o fuel (Session.returns_of_prepareText prepared statement hmem) hd

/-- A function with a loop of its own, called in a loop. -/
theorem jumps_lexical_loops :
    let text := "fun f() { while (true) { break; } return 1; } while (true) { while (true) break; print f(); break; }"
    ∃ statements s', Session.prepareText text .new = .ok (some statements) s' ∧ statements.length = 2 ∧
      watchText .silent 30 statements (s'.machine, ()) =
        Labelled.executeText .silent 30 statements (s'.machine, ()) ∧
      (Session.final (Session.runText 30 text .new)).machine.output = "1\n" := by
  intro text
  rcases Session.prepareText_cases text .new with ⟨broken, -⟩ | ⟨-, broken, -⟩ | ⟨-, -, prepared⟩
  · exact absurd broken (by decide +kernel)
  · exact absurd broken (by decide +kernel)
  · have lexical := (jumps_lexical .silent 30).2.2.2.2 .new (.initial _ _ _ _) text _ _ prepared
    exact ⟨_, _, prepared, by decide +kernel, lexical.1 (), by decide +kernel⟩

end Scriptlet
