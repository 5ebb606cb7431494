import Scriptlet.Proofs.Sessions
import Scriptlet.Proofs.TrackedSteps

/-!
# Rules keep track

If the evaluators for the parts of a node keep what is tracked, then so does the rule for the node. An induction on
the fuel carries this over to whole runs, and from there to sessions.
-/
namespace Scriptlet

variable {ν : Type}

/-- A value that is returned is allowed. -/
def Tracking.flow (T : Tracking ν) (g : T.Ghost) : Flow → Prop
  | .returning v => T.value g v
  | _ => True

/-- The evaluators for the parts keep what is tracked. -/
structure Inner.Tracked (inner : Inner ν) (T : Tracking ν) (G : Regime) : Prop where
  lawful : T.Lawful G.declaration inner.observer
  evaluate {g : T.Ghost} {w : Machine × ν} {e : Expr} : T.state g w.1.store w.2 →
    G.expr inner.fuel w.1.spare e → T.Keeps G g w (inner.evaluate e) T.value
  execute {g : T.Ghost} {w : Machine × ν} {s : Stmt} : T.state g w.1.store w.2 →
    G.stmt inner.fuel w.1.spare s → T.Keeps G g w (inner.execute s) T.flow

namespace Inner.Tracked

open Tracking

variable {inner : Inner ν} {T : Tracking ν} {G : Regime} (h : inner.Tracked T G) {g : T.Ghost} {w : Machine × ν}
include h

theorem inContext {α : Type} {R : T.Ghost → α → Prop} (hs : T.state g w.1.store w.2)
    {change : Context → Context} {x : Watched ν α}
    (hx : ∀ n, T.state g w.1.store n → T.Keeps G g (w.1.withContext (change w.1.context), n) x R) :
    T.Keeps G g w (inner.inContext change x) R :=
  h.lawful.inContext hs hx

theorem openFrame (hs : T.state g w.1.store w.2) (region : Region) (enclosing : FrameId) :
    T.Keeps G g w (inner.openFrame region enclosing) fun _ _ => True := by
  refine .bind (h.lawful.newFrame hs enclosing) fun frame g' w' after _ => ?_
  exact .bind (h.lawful.tells after.state _) fun _ _ _ after' _ => .pure after'.state trivial

theorem evaluateAll (hs : T.state g w.1.store w.2) {es : List Expr}
    (he : ∀ e ∈ es, G.expr inner.fuel w.1.spare e) :
    T.Keeps G g w (inner.evaluateAll es) fun g' vs => ∀ v ∈ vs, T.value g' v := by
  induction es generalizing g w with
  | nil => exact .pure hs fun v hv => nomatch hv
  | cons e es ih =>
    refine .bind (h.evaluate hs (he e (List.mem_cons_self ..))) fun v g' w' after hv => ?_
    refine .bind (ih after.state fun e' hmem => ?_) fun vs g'' w'' after' hvs => ?_
    · rw [after.spare]
      exact he e' (List.mem_cons_of_mem _ hmem)
    · refine .pure after'.state fun v' hmem => ?_
      rcases List.mem_cons.1 hmem with rfl | hmem
      · exact T.mono after'.le hv
      · exact hvs v' hmem

theorem runAll (hs : T.state g w.1.store w.2) {ss : List Stmt} (ht : ∀ s ∈ ss, G.stmt inner.fuel w.1.spare s) :
    T.Keeps G g w (inner.runAll ss) T.flow := by
  induction ss generalizing g w with
  | nil => exact .pure hs trivial
  | cons s ss ih =>
    refine .bind (h.execute hs (ht s (List.mem_cons_self ..))) fun flow g' w' after hflow => ?_
    cases flow with
    | normal =>
      refine ih after.state fun t hmem => ?_
      rw [after.spare]
      exact ht t (List.mem_cons_of_mem _ hmem)
    | breaking | continuing | returning => exact .pure after.state hflow

/-! ## Calls -/

theorem bindMethod (hs : T.state g w.1.store w.2) {method : FunctionObject} (hm : T.method g method)
    {id : InstanceId} {c : ClassObject} (ho : T.value g (.object id c)) :
    T.Keeps G g w (inner.bindMethod method id c) fun g' f => T.value g' (.function f) := by
  refine .bind (h.lawful.bindMethods hs hm ho) fun f g' w' after hf => ?_
  exact .bind (h.lawful.tells after.state _) fun _ _ _ after' _ => .pure after'.state (T.mono after'.le hf)

/-- Inside a call there is room for one call less. -/
theorem runBody (hs : T.state g w.1.store w.2) {f : FunctionObject} {args : List Value}
    (hb : ∀ spare, w.1.spare = spare + 1 → ∀ s ∈ f.declaration.body, G.stmt inner.fuel spare s)
    (hv : ∀ v ∈ args, T.value g v) : T.Keeps G g w (inner.runBody f args) T.flow := by
  unfold Inner.runBody
  refine .bindReads hs (.checkDepth _) fun _ room => ?_
  have opened : T.Keeps G g w (inner.openCall f args) fun _ _ => True := by
    refine .bind (h.openFrame hs _ _) fun frame g' w' after _ => ?_
    refine .bind (h.lawful.defineAll after.state frame fun v hmem => T.mono after.le (hv v hmem)) ?_
    exact fun _ _ _ after' _ => .pure after'.state trivial
  refine .bind opened fun frame g' w' after _ => h.inContext after.state fun n entered => ?_
  refine h.runAll entered fun s hmem => hb _ ?_ s hmem
  -- The check of the depth left room for this call, and the body counts it.
  change w.1.settings.maxCallDepth - w.1.context.callDepth =
    w'.1.settings.maxCallDepth - (w'.1.context.callDepth + 1) + 1
  rw [after.settings, after.context]
  omega

theorem callFunction (hs : T.state g w.1.store w.2) {f : FunctionObject} {args : List Value}
    (hb : ∀ spare, w.1.spare = spare + 1 → ∀ s ∈ f.declaration.body, G.stmt inner.fuel spare s)
    (hv : ∀ v ∈ args, T.value g v) : T.Keeps G g w (inner.callFunction f args) T.value := by
  unfold Inner.callFunction
  refine .bind (h.runBody hs hb hv) fun flow g' w' after hflow => .ite ?_ ?_
  · refine .bindReads after.state .getStore ?_
    rintro _ rfl
    exact .reads after.state (.getAt _ fun _ => h.lawful.getAt after.state) fun _ hg => hg
  · cases flow with
    | returning v => exact .pure after.state hflow
    | _ => exact .pure after.state (h.lawful.null g')

theorem callValue (hs : T.state g w.1.store w.2) {callee : Value} (hc : T.value g callee) (line : Nat)
    {args : List Value} (hv : ∀ v ∈ args, T.value g v)
    (hb : ∀ spare, w.1.spare = spare + 1 → ∀ d, G.declaration d → ∀ s ∈ d.body, G.stmt inner.fuel spare s) :
    T.Keeps G g w (inner.callValue callee line args) T.value := by
  unfold Inner.callValue
  split
  · refine .bindReads hs (.checkCount _ _ _) fun _ _ => ?_
    exact .carries (Builtin.tracked_callNative h.lawful.toLawfulData hs line (fun _ _ => h.lawful.called hc) hv)
  · refine .bindReads hs (.checkCount _ _ _) fun _ _ => ?_
    exact h.callFunction hs (fun spare room => hb spare room _ (h.lawful.function hc)) hv
  · next c =>
    have allowed := h.lawful.classObject.1 hc
    refine .bindReads hs (.checkCount _ _ _) fun _ _ => ?_
    refine .bind (h.lawful.newInstances hs allowed) fun id g₁ w₁ after₁ new => ?_
    split
    · next init hinit =>
      have method := T.methodMono after₁.le (allowed.method? hinit)
      refine .bind (h.bindMethod after₁.state method new) fun f g₂ w₂ after₂ hf => ?_
      have after := after₁.trans after₂
      have called : T.Keeps G g₂ w₂ (inner.callFunction f args) T.value := by
        refine h.callFunction after.state (fun spare room => ?_) fun v hmem => T.mono after.le (hv v hmem)
        exact hb spare (after.spare ▸ room) _ (h.lawful.function hf)
      refine .bind called fun _ _ _ after₃ _ => .pure after₃.state ?_
      exact T.mono after₃.le (T.mono after₂.le new)
    · exact .pure after₁.state new
  · exact .fail hs _ _

/-! ## Expressions -/

theorem readProperty (hs : T.state g w.1.store w.2) {object : Value} (ho : T.value g object) (name : Name) :
    T.Keeps G g w (inner.readProperty object name) T.value := by
  unfold Inner.readProperty
  split
  · next id c =>
    refine .bindReads hs .getStore ?_
    rintro _ rfl
    split
    · next v hv => exact .pure hs (h.lawful.field hs hv)
    · split
      · next method hm =>
        refine .bind (h.bindMethod hs ((h.lawful.object ho).method? hm) ho) fun f _ _ after hf => ?_
        exact .pure after.state hf
      · exact .fail hs _ _
  · split
    · next method hm => exact .pure hs ((h.lawful.classObject.1 ho).static? hm)
    · exact .fail hs _ _
  · split
    · next read hread => exact .carries (Builtin.tracked_property? h.lawful.toLawfulData hs ho hread)
    · exact .fail hs _ _

theorem readSuper (hs : T.state g w.1.store w.2) (id : NodeId) (line : Nat) (method : Name) :
    T.Keeps G g w (inner.readSuper id line method) T.value := by
  unfold Inner.readSuper
  refine .bindReads hs (.readSuperclass (P := T.value g) id line fun _ _ _ => h.lawful.getAt hs) ?_
  rintro ⟨parent, instanceId, c⟩ ⟨hparent, ho⟩
  dsimp only
  split
  · next found hfound =>
    have method := (h.lawful.classObject.1 hparent).method? hfound
    exact .bind (h.bindMethod hs method ho) fun f _ _ after hf => .pure after.state hf
  · exact .fail hs _ _

/-- The second of two parts is evaluated where the first one ended. -/
theorem evaluateNext {g' : T.Ghost} {w' : Machine × ν} (after : T.After g w g' w') {e : Expr}
    (he : G.expr inner.fuel w.1.spare e) : T.Keeps G g' w' (inner.evaluate e) T.value :=
  h.evaluate after.state (after.spare ▸ he)

theorem evaluateLogical (hs : T.state g w.1.store w.2) {left right : Expr} {op : Connective} {line : Nat}
    (he : ∀ e ∈ (Expr.logical left op line right).parts, G.expr inner.fuel w.1.spare e) :
    T.Keeps G g w (inner.evaluateLogical left op line right) T.value := by
  have both (hop : op = .and ∨ op = .or) : G.expr inner.fuel w.1.spare left ∧ G.expr inner.fuel w.1.spare right := by
    rcases hop with rfl | rfl
    · exact ⟨he left (List.mem_cons_self ..), he right (List.mem_cons_of_mem _ (List.mem_singleton.2 rfl))⟩
    · exact ⟨he left (List.mem_cons_self ..), he right (List.mem_cons_of_mem _ (List.mem_singleton.2 rfl))⟩
  cases op with
  | or =>
    obtain ⟨hl, hr⟩ := both (.inr rfl)
    exact .bind (h.evaluate hs hl) fun v _ _ after hv => .ite (.pure after.state hv) (h.evaluateNext after hr)
  | and =>
    obtain ⟨hl, hr⟩ := both (.inl rfl)
    exact .bind (h.evaluate hs hl) fun v _ _ after hv => .ite (h.evaluateNext after hr) (.pure after.state hv)
  | xor | nor | nand => exact h.evaluate hs (he _ (List.mem_singleton.2 rfl))

theorem evaluateExpr (hs : T.state g w.1.store w.2) {e : Expr} (he : G.expr (inner.fuel + 1) w.1.spare e) :
    T.Keeps G g w (inner.evaluateExpr e) T.value := by
  have part {p : Expr} (hp : p ∈ e.parts) : G.expr inner.fuel w.1.spare p := G.exprPart he hp
  cases e with
  | literal v => exact .pure hs (h.lawful.literal g v)
  | group e => exact h.evaluate hs (part (List.mem_singleton.2 rfl))
  | array es =>
    refine .bind (h.evaluateAll hs fun e hmem => part hmem) fun vs _ _ after hvs => ?_
    exact .carries (Builtin.tracked_newList h.lawful.toLawfulData after.state (by decide) hvs)
  | unary op line e =>
    refine .bind (h.evaluate hs (part (List.mem_singleton.2 rfl))) fun v _ _ after _ => ?_
    exact .carries (Builtin.tracked_unaryOp h.lawful.toLawfulData after.state op line v)
  | binary l op line r =>
    have hr := part (List.mem_cons_of_mem l (List.mem_singleton.2 rfl))
    refine .bind (h.evaluate hs (part (List.mem_cons_self ..))) fun v _ _ after _ => ?_
    refine .bind (h.evaluateNext after hr) fun v' _ _ after' _ => ?_
    exact .carries (Builtin.tracked_binaryOp h.lawful.toLawfulData after'.state op line v v')
  | logical l op line r => exact h.evaluateLogical hs fun e hmem => part hmem
  | «variable» use => exact .reads hs (h.lawful.readName hs _ _) fun _ hv => hv
  | this id line => exact .reads hs (h.lawful.readName hs _ _) fun _ hv => hv
  | assign target e =>
    refine .bind (h.evaluate hs (part (List.mem_singleton.2 rfl))) fun v g₁ w₁ after hv => ?_
    refine .bind (h.lawful.tells after.state _) fun _ g₂ w₂ after₂ _ => ?_
    have hv₂ := T.mono after₂.le hv
    refine .bind (h.lawful.assignName after₂.state target hv₂) fun _ _ _ after₃ _ => ?_
    exact .pure after₃.state (T.mono after₃.le hv₂)
  | call f line args =>
    refine .bind (h.evaluate hs (part (List.mem_cons_self ..))) fun callee g₁ w₁ after hc => ?_
    refine .bind (h.evaluateAll after.state fun e hmem => ?_) fun vs g₂ w₂ after₂ hvs => ?_
    · rw [after.spare]
      exact part (List.mem_cons_of_mem f hmem)
    · refine h.callValue after₂.state (T.mono after₂.le hc) line hvs fun spare room d hd s hmem => ?_
      rw [after₂.spare, after.spare] at room
      exact G.callBody (room ▸ he) hd hmem
  | get o name =>
    refine .bind (h.evaluate hs (part (List.mem_singleton.2 rfl))) fun v _ _ after hv => ?_
    exact h.readProperty after.state hv name
  | set o name e =>
    have hvalue := part (List.mem_cons_of_mem o (List.mem_singleton.2 rfl))
    refine .bind (h.evaluate hs (part (List.mem_cons_self ..))) fun v g₁ w₁ after _ => ?_
    refine .bindReads after.state (.assignedInstance v name) fun id _ => ?_
    refine .bind (h.evaluateNext after hvalue) fun v' g₂ w₂ after₂ hv' => ?_
    refine .bind (.modifyStore (h.lawful.setField id name.text after₂.state hv')) ?_
    exact fun _ _ _ after₃ _ => .pure after₃.state (T.mono after₃.le hv')
  | super id line method => exact h.readSuper hs id line method

/-! ## Classes -/

theorem evaluateSuperclass (hs : T.state g w.1.store w.2) {superclass : Option Variable}
    (he : ∀ use, superclass = some use → G.expr inner.fuel w.1.spare (.variable use)) :
    T.Keeps G g w (inner.evaluateSuperclass superclass) fun g' parent =>
      ∀ c, parent = some c → T.Class g' c := by
  cases superclass with
  | none => exact .pure hs nofun
  | some use =>
    refine .bind (h.evaluate hs (he use rfl)) fun v _ _ after hv => ?_
    cases v with
    | classObject c =>
      refine .pure after.state ?_
      rintro _ ⟨⟩
      exact h.lawful.classObject.1 hv
    | _ => exact .fail after.state _ _

theorem openClass (hs : T.state g w.1.store w.2) (declaration : Stmt) (frame : FrameId)
    {parent : Option ClassObject} (hp : ∀ c, parent = some c → T.Class g c) :
    T.Keeps G g w (inner.openClass declaration frame parent) fun _ _ => True := by
  cases parent with
  | none => exact .pure hs trivial
  | some c =>
    refine .bind (h.lawful.newSuperFrame hs frame (hp c rfl)) fun _ _ _ after _ => ?_
    exact .bind (h.lawful.tells after.state _) fun _ _ _ after' _ => .pure after'.state trivial

theorem makeClass (hs : T.state g w.1.store w.2) (frame : FrameId) {parent : Option ClassObject} (name : Name)
    (superclass : Option Variable) {methods statics : List FunctionDecl}
    (hp : ∀ c, parent = some c → T.Class g c) (hd : ∀ d ∈ methods ++ statics, G.declaration d) :
    T.Keeps G g w (inner.makeClass frame parent name superclass methods statics) T.Class := by
  refine .bind (h.openClass hs _ frame hp) fun classFrame g₁ w₁ after₁ _ => ?_
  have makesMethod (d : FunctionDecl) (hmem : d ∈ methods) {g : T.Ghost} {w : Machine × ν}
      (hs : T.state g w.1.store w.2) :
      T.Keeps G g w (liftM (Eval.newFunction classFrame (true && d.name.text == initName) d)) T.method :=
    h.lawful.newMethods hs classFrame _ (hd d (List.mem_append_left _ hmem))
  refine .bind (.methodTable (P := T.method) T.methodMono after₁.state classFrame true makesMethod nofun) fun
    instanceMethods g₂ w₂ after₂ hmethods => ?_
  refine .bind (h.openFrame after₂.state _ classFrame) fun staticFrame g₃ w₃ after₃ _ => ?_
  have makesStatic (d : FunctionDecl) (hmem : d ∈ statics) {g : T.Ghost} {w : Machine × ν}
      (hs : T.state g w.1.store w.2) :
      T.Keeps G g w (liftM (Eval.newFunction staticFrame (false && d.name.text == initName) d)) fun g' f =>
        T.value g' (.function f) :=
    h.lawful.newFunctions hs staticFrame (hd d (List.mem_append_right _ hmem))
  refine .bind (.methodTable (P := fun g f => T.value g (.function f)) T.mono after₃.state staticFrame false makesStatic
    nofun) fun staticMethods g₄ w₄ after₄ hstatics => ?_
  refine .bind (h.lawful.freshIdentity after₄.state) fun id g₅ w₅ after₅ _ => .pure after₅.state ?_
  -- What was made earlier is still allowed when the class is put together.
  have later := after₃.trans (after₄.trans after₅)
  refine .extended (fun c hc => (hp c hc).mono (after₁.trans (after₂.trans later)).le) ?_ ?_
  · exact fun name f hf => T.methodMono later.le (hmethods name f hf)
  · exact fun name f hf => T.mono after₅.le (hstatics name f hf)

theorem declareClass (hs : T.state g w.1.store w.2) {name : Name} {superclass : Option Variable}
    {methods statics : List FunctionDecl}
    (he : ∀ use, superclass = some use → G.expr inner.fuel w.1.spare (.variable use))
    (hd : ∀ d ∈ methods ++ statics, G.declaration d) :
    T.Keeps G g w (inner.declareClass name superclass methods statics) fun _ _ => True := by
  refine .bind (h.evaluateSuperclass hs he) fun parent g₁ w₁ after₁ hparent => ?_
  refine .bindReads after₁.state .currentFrame fun frame _ => ?_
  refine .bind (h.lawful.define after₁.state frame name false (h.lawful.null g₁)) fun _ g₂ w₂ after₂ _ => ?_
  have parents (c : ClassObject) (hc : parent = some c) : T.Class g₂ c := (hparent c hc).mono after₂.le
  refine .bind (h.makeClass after₂.state frame name superclass parents hd) fun c g₃ w₃ after₃ hc => ?_
  exact h.lawful.assignFrom after₃.state frame name (h.lawful.classObject.2 hc)

/-! ## Statements -/

theorem runBlock (hs : T.state g w.1.store w.2) {body : List Stmt}
    (hb : ∀ s ∈ body, G.stmt inner.fuel w.1.spare s) : T.Keeps G g w (inner.runBlock body) T.flow := by
  refine .bindReads hs .currentFrame fun enclosing _ => ?_
  refine .bind (h.openFrame hs _ enclosing) fun frame g' w' after _ => ?_
  refine h.inContext after.state fun n entered => h.runAll entered fun s hmem => ?_
  have spare : (w'.1.withContext { w'.1.context with frame := frame }).spare = w.1.spare := after.spare
  exact spare ▸ hb s hmem

theorem runLoop (hs : T.state g w.1.store w.2) {turn : Watched ν (Option Flow)}
    (out : G.halt .outOfFuel) (ht : ∀ g' w', T.state g' w'.1.store w'.2 → w'.1.spare = w.1.spare →
      T.Keeps G g' w' turn fun g'' r => ∀ flow, r = some flow → T.flow g'' flow) :
    T.Keeps G g w (inner.runLoop turn) T.flow := by
  have turns (n : Nat) (g' : T.Ghost) (w' : Machine × ν) (hs' : T.state g' w'.1.store w'.2)
      (hw : w'.1.spare = w.1.spare) : T.Keeps G g' w' (Watched.loop turn n) T.flow := by
    induction n generalizing g' w' with
    | zero => exact .throw hs' out
    | succ n ih =>
      refine .bind (ht g' w' hs' hw) fun r g'' w'' after hflow => ?_
      cases r with
      | some flow => exact .pure after.state (hflow flow rfl)
      | none => exact ih g'' w'' after.state (after.spare.trans hw)
  exact h.inContext hs fun n entered => turns inner.fuel g _ entered rfl

theorem evaluateAny (hs : T.state g w.1.store w.2) {e : Option Expr}
    (he : ∀ e' ∈ e.toList, G.expr inner.fuel w.1.spare e') :
    T.Keeps G g w (inner.evaluateAny e) fun _ _ => True := by
  cases e with
  | none => exact .pure hs trivial
  | some e =>
    refine .bind (h.evaluate hs (he e (List.mem_singleton.2 rfl))) fun _ _ _ after _ => ?_
    exact .pure after.state trivial

theorem whileTurn (hs : T.state g w.1.store w.2) {c : Expr} {body : Stmt} {increment : Option Expr}
    (hc : G.expr inner.fuel w.1.spare c) (hb : G.stmt inner.fuel w.1.spare body)
    (hi : ∀ e ∈ increment.toList, G.expr inner.fuel w.1.spare e) :
    T.Keeps G g w (inner.whileTurn c body increment) fun g' r => ∀ flow, r = some flow → T.flow g' flow := by
  unfold Inner.whileTurn
  refine .bind (h.evaluate hs hc) fun v g₁ w₁ after₁ _ => .ite (.pure after₁.state ?_) ?_
  · rintro _ ⟨⟩
    trivial
  refine .bind (h.execute after₁.state (after₁.spare ▸ hb)) fun flow g₂ w₂ after₂ hflow => ?_
  have after := after₁.trans after₂
  have rest : T.Keeps G g₂ w₂
      (do
        inner.evaluateAny increment
        return none : Watched ν (Option Flow))
      fun g' r => ∀ flow, r = some flow → T.flow g' flow := by
    refine .bind (h.evaluateAny after.state fun e hmem => after.spare ▸ hi e hmem) fun _ _ _ after₃ _ => ?_
    exact .pure after₃.state nofun
  cases flow with
  | normal | continuing => exact rest
  | breaking =>
    refine .pure after₂.state ?_
    rintro _ ⟨⟩
    trivial
  | returning v =>
    refine .pure after₂.state ?_
    rintro _ ⟨⟩
    exact hflow

theorem doTurn (hs : T.state g w.1.store w.2) {c : Expr} {body : Stmt} (hb : G.stmt inner.fuel w.1.spare body)
    (hc : G.expr inner.fuel w.1.spare c) :
    T.Keeps G g w (inner.doTurn body c) fun g' r => ∀ flow, r = some flow → T.flow g' flow := by
  unfold Inner.doTurn
  refine .bind (h.execute hs hb) fun flow g₁ w₁ after₁ hflow => ?_
  have rest : T.Keeps G g₁ w₁
      (do if (← inner.evaluate c).isTruthy then return none else return some .normal)
      fun g' r => ∀ flow, r = some flow → T.flow g' flow := by
    refine .bind (h.evaluateNext after₁ hc) fun v _ _ after₂ _ => .ite (.pure after₂.state nofun) ?_
    refine .pure after₂.state ?_
    rintro _ ⟨⟩
    trivial
  cases flow with
  | normal | continuing => exact rest
  | breaking =>
    refine .pure after₁.state ?_
    rintro _ ⟨⟩
    trivial
  | returning v =>
    refine .pure after₁.state ?_
    rintro _ ⟨⟩
    exact hflow

/-! ## Imports -/

theorem runDeclarations (hs : T.state g w.1.store w.2) (line : Nat) (path : String) (place : Place)
    {declarations : List Stmt} (ht : ∀ s ∈ declarations, G.stmt inner.fuel w.1.spare s) :
    T.Keeps G g w (inner.runDeclarations line path place declarations) fun _ _ => True := by
  unfold Inner.runDeclarations
  refine .bind (h.lawful.tells hs _) fun _ g₁ w₁ after₁ _ => ?_
  have run : T.Keeps G g₁ w₁ (inner.runImported place declarations) T.flow := by
    refine h.inContext after₁.state fun n entered => h.runAll entered fun s hmem => ?_
    have spare : (w₁.1.withContext (w₁.1.context.enterFile place)).spare = w.1.spare := after₁.spare
    exact spare ▸ ht s hmem
  refine .bind (R := fun _ _ => True) (.tryCatch ?_ ?_) fun _ g₂ w₂ after₂ _ => ?_
  · exact .bind run fun _ _ _ after _ => .pure after.state trivial
  · intro halt g₂ w₂ allowed after₂
    cases halt with
    | fault line' f =>
      refine .bind (R := fun _ _ => True) (.aside after₂.state (.report _) fun _ _ => trivial) ?_
      exact fun _ _ _ after₃ _ => .fail after₃.state _ _
    | outOfFuel => exact .throw after₂.state allowed
  · exact .aside after₂.state (.markImported place) fun _ _ => trivial

theorem importFile (hs : T.state g w.1.store w.2) (line : Nat) (path : String)
    (ht : ∀ s, G.stmt inner.fuel w.1.spare s) : T.Keeps G g w (inner.importFile line path) fun _ _ => True := by
  have source (place : Place) (text : Except SourceError String) :
      T.Keeps G g w (inner.importSource line path place text) fun _ _ => True := by
    cases text with
    | error e => exact .fail hs _ _
    | ok text =>
      refine .bind (R := fun _ _ => True) (.aside hs (.readDeclarations line path text) fun _ _ => trivial) ?_
      intro declarations g' w' after _
      exact h.runDeclarations after.state line path place fun s _ => after.spare ▸ ht s
  unfold Inner.importFile
  refine .bindReads hs .getMachine fun m _ => ?_
  split
  · exact .fail hs _ _
  · exact .ite (.fail hs _ _) (.ite (.pure hs trivial) (source _ _))

/-! ## All statements -/

/-- A variable is bound once its initial value is known. -/
theorem declare (hs : T.state g w.1.store w.2) {e : Expr} (name : Name) (constant : Bool)
    (he : G.expr inner.fuel w.1.spare e) :
    T.Keeps G g w
      (do
        let v ← inner.evaluate e
        Eval.define (← Eval.currentFrame) name v constant
        return .normal : Watched ν Flow) T.flow := by
  refine .bind (h.evaluate hs he) fun v _ _ after hv => .bindReads after.state .currentFrame fun frame _ => ?_
  refine .bind (h.lawful.define after.state frame name constant hv) fun _ _ _ after' _ => ?_
  exact .pure after'.state trivial

theorem executeStmt (hs : T.state g w.1.store w.2) {s : Stmt} (ht : G.stmt (inner.fuel + 1) w.1.spare s)
    (vacant : ∀ name, s = .letDecl name none → T.vacant w.2 w.1.context.frame name.text) :
    T.Keeps G g w (inner.executeStmt s) T.flow := by
  have expression {e : Expr} (he : e ∈ s.expressions) : G.expr inner.fuel w.1.spare e := G.stmtExpr ht he
  have part {t : Stmt} (hp : t ∈ s.parts) : G.stmt inner.fuel w.1.spare t := G.stmtPart ht hp
  have written {g' : T.Ghost} {w' : Machine × ν} (hs' : T.state g' w'.1.store w'.2) (v : Value) :
      T.Keeps G g' w' (do Eval.writeLine v; return .normal : Watched ν Flow) T.flow :=
    .bind (R := fun _ _ => True) (.aside hs' (.writeLine v) fun _ _ => trivial) fun _ _ _ after _ =>
      .pure after.state trivial
  cases s with
  | expression e =>
    refine .bind (h.evaluate hs (expression (List.mem_singleton.2 rfl))) fun v _ _ after _ => ?_
    refine .bindReads after.state .getMachine fun m _ => .ite (written after.state v) ?_
    exact .pure after.state trivial
  | print e =>
    refine .bind (h.evaluate hs (expression (List.mem_singleton.2 rfl))) fun v _ _ after _ => ?_
    exact written after.state v
  | letDecl name init =>
    cases init with
    | none =>
      change T.Keeps G g w
        (do
          Eval.define (← Eval.currentFrame) name .undefined false
          return .normal : Watched ν Flow) T.flow
      refine .bindReads hs .currentFrame ?_
      rintro _ rfl
      refine .bind (.define hs _ name false fun unbound => ?_) fun _ _ _ after _ => .pure after.state trivial
      exact h.lawful.bindMissing hs unbound (vacant name rfl)
    | some e => exact h.declare hs name false (expression (List.mem_singleton.2 rfl))
  | constDecl name init => exact h.declare hs name true (expression (List.mem_singleton.2 rfl))
  | block body => exact h.runBlock hs fun t hmem => part hmem
  | ifThen c t =>
    refine .bind (h.evaluate hs (expression (List.mem_singleton.2 rfl))) fun v _ _ after _ => ?_
    refine .ite (h.execute after.state (after.spare ▸ part (List.mem_singleton.2 rfl))) ?_
    exact .pure after.state trivial
  | ifElse c t e =>
    refine .bind (h.evaluate hs (expression (List.mem_singleton.2 rfl))) fun v _ _ after _ => ?_
    refine .ite (h.execute after.state (after.spare ▸ part (List.mem_cons_self ..))) ?_
    exact h.execute after.state (after.spare ▸ part (List.mem_cons_of_mem t (List.mem_singleton.2 rfl)))
  | whileLoop c body inc =>
    refine h.runLoop hs (G.loop ht rfl) fun g' w' hs' spare => ?_
    refine h.whileTurn hs' ?_ ?_ fun e hmem => ?_
    · exact spare ▸ expression (List.mem_cons_self ..)
    · exact spare ▸ part (List.mem_singleton.2 rfl)
    · exact spare ▸ expression (List.mem_cons_of_mem c hmem)
  | doWhile body c =>
    refine h.runLoop hs (G.loop ht rfl) fun g' w' hs' spare => ?_
    exact h.doTurn hs' (spare ▸ part (List.mem_singleton.2 rfl)) (spare ▸ expression (List.mem_singleton.2 rfl))
  | breakLoop line | continueLoop line =>
    refine .bindReads hs .getContext fun c _ => .ite ?_ (.pure hs trivial)
    exact .bind (.fail hs _ _ (R := fun _ _ => False)) fun _ _ _ _ never => never.elim
  | returnValue line value =>
    cases value with
    | none => exact .pure hs (h.lawful.null g)
    | some e =>
      refine .bind (h.evaluate hs (expression (List.mem_singleton.2 rfl))) fun v _ _ after hv => ?_
      exact .pure after.state hv
  | function d =>
    have hd : G.declaration d := G.stmtRoutine ht (List.mem_singleton.2 rfl)
    refine .bindReads hs .currentFrame fun frame _ => ?_
    refine .bind (h.lawful.newFunctions hs frame hd) fun f g' _ after hf => ?_
    refine .bind (h.lawful.define after.state frame d.name false hf) fun _ _ _ after' _ => ?_
    exact .pure after'.state trivial
  | classDecl name superclass methods statics =>
    have clause (use : Variable) (heq : superclass = some use) : G.expr inner.fuel w.1.spare (.variable use) := by
      subst heq
      exact expression (List.mem_singleton.2 rfl)
    refine .bind (h.declareClass hs clause fun d hmem => G.stmtRoutine ht hmem) fun _ _ _ after _ => ?_
    exact .pure after.state trivial
  | importFile line path =>
    refine .bind (h.importFile hs line path fun s => G.imported s ht) fun _ _ _ after _ => ?_
    exact .pure after.state trivial

end Inner.Tracked

/-! ## Runs of any length -/

namespace Tracking.Lawful

variable {T : Tracking ν} {G : Regime} {o : Observer ν} (hT : T.Lawful G.declaration o)
include hT

theorem tracked (fuel : Nat) : (innerAt o fuel).Tracked T G := by
  induction fuel with
  | zero =>
    exact ⟨hT, fun hs he => .throw hs (G.exprSpent he), fun hs ht => .throw hs (G.stmtSpent ht)⟩
  | succ n ih =>
    refine ⟨hT, ?_, ?_⟩
    · intro g w e hs he
      refine .bind (hT.tells hs _) fun _ g' w' after _ => ?_
      exact ih.evaluateExpr after.state (after.spare ▸ he)
    · intro g w s hs ht
      -- The notes tell of the statement before it is executed, so they allow for a missing value here.
      refine hT.bindTell (fun told => ih.executeStmt told ht ?_) hs
      rintro name rfl
      exact hT.told w.1 w.2 name

theorem watchExpr {g : T.Ghost} {w : Machine × ν} {fuel : Nat} {e : Expr} (hs : T.state g w.1.store w.2)
    (he : G.expr fuel w.1.spare e) : T.Keeps G g w (watchExpr o fuel e) T.value :=
  (hT.tracked fuel).evaluate hs he

theorem watchStmt {g : T.Ghost} {w : Machine × ν} {fuel : Nat} {s : Stmt} (hs : T.state g w.1.store w.2)
    (ht : G.stmt fuel w.1.spare s) : T.Keeps G g w (watchStmt o fuel s) T.flow :=
  (hT.tracked fuel).execute hs ht

theorem evaluate {g : T.Ghost} {m : Machine} {n : ν} (hs : T.state g m.store n) (fuel : Nat) (e : Expr)
    (he : G.expr fuel m.spare e) :
    Meets (evaluate fuel e) m (fun v m' => ∃ g' n', T.After g (m, n) g' (m', n') ∧ T.value g' v)
      fun halt m' => G.halt halt ∧ ∃ g' n', T.After g (m, n) g' (m', n') :=
  (hT.watchExpr (w := (m, n)) hs he).outcome (outcome_watchExpr o fuel e m n)

theorem execute {g : T.Ghost} {m : Machine} {n : ν} (hs : T.state g m.store n) (fuel : Nat) (s : Stmt)
    (ht : G.stmt fuel m.spare s) :
    Meets (execute fuel s) m (fun flow m' => ∃ g' n', T.After g (m, n) g' (m', n') ∧ T.flow g' flow)
      fun halt m' => G.halt halt ∧ ∃ g' n', T.After g (m, n) g' (m', n') :=
  (hT.watchStmt (w := (m, n)) hs ht).outcome (outcome_watchStmt o fuel s m n)

theorem watchText {g : T.Ghost} {w : Machine × ν} (hs : T.state g w.1.store w.2) (fuel : Nat)
    {statements : List Stmt} (ht : ∀ s ∈ statements, G.stmt fuel w.1.spare s) :
    T.Keeps G g w (watchText o fuel statements) fun _ _ => True := by
  have all (ss : List Stmt) (g' : T.Ghost) (w' : Machine × ν) (hs' : T.state g' w'.1.store w'.2)
      (ht' : ∀ s ∈ ss, G.stmt fuel w'.1.spare s) :
      T.Keeps G g' w' (watchAll o fuel ss) fun _ _ => True := by
    induction ss generalizing g' w' with
    | nil => exact .pure hs' trivial
    | cons s ss ih =>
      refine .bind (hT.watchStmt hs' (ht' s (List.mem_cons_self ..))) fun _ g'' w'' after _ => ?_
      exact ih g'' w'' after.state fun t hmem => after.spare ▸ ht' t (List.mem_cons_of_mem _ hmem)
  refine .bind (hT.tells hs _) fun _ g' w' after _ => all statements g' w' after.state fun s hmem => ?_
  exact after.spare ▸ ht s hmem

end Tracking.Lawful

/-! ## Sessions -/

namespace Session

variable {s s' : Session}

/-- Taking up a text leaves the store alone. -/
theorem prepareText_store {source : String} {r : Option (List Stmt)} (h : prepareText source s = .ok r s') :
    s'.machine.store = s.machine.store ∧ s'.machine.context = s.machine.context ∧
      s'.machine.settings = s.machine.settings := by
  have loaded := (Eval.Aside.load s.inComment source s.machine).1
  have analysed := (Eval.Aside.analyse (s.machine.load s.inComment source).1.statements
    (s.machine.load s.inComment source).2).1
  rcases prepareText_cases source s with ⟨-, result⟩ | ⟨-, -, result⟩ | ⟨-, -, result⟩
  · cases result.symm.trans h
    exact loaded
  · cases result.symm.trans h
    exact ⟨analysed.1.trans loaded.1, analysed.2.1.trans loaded.2.1, analysed.2.2.trans loaded.2.2⟩
  · cases result.symm.trans h
    exact ⟨analysed.1.trans loaded.1, analysed.2.1.trans loaded.2.1, analysed.2.2.trans loaded.2.2⟩

/-- The session after some texts and scripts. -/
def after (fuel : Nat) (items : List Item) (s : Session) : Session :=
  items.foldl (fun s item => final (runItem fuel item s)) s

variable {T : Tracking (List Visit)} (hT : T.Lawful Regime.free.declaration .recorder) {g : T.Ghost}
  {seen : List Visit}
include hT

theorem tracked_runText (h : T.state g s.machine.store seen) (fuel : Nat) (source : String) :
    T.Next g (final (runText fuel source s)).machine.store (watchSource fuel source s seen) := by
  obtain ⟨r, s', prepared⟩ := prepareText_ends source s
  rw [← (prepareText_store prepared).1] at h
  rw [runText_eq prepared, watchSource, prepared]
  cases r with
  | none => exact .here h
  | some statements =>
    have store := (runStatements_machine fuel statements s' seen).store
    have run := hT.watchText (w := (s'.machine, seen)) h fuel fun _ (_ : _ ∈ statements) => trivial
    unfold Tracking.Keeps Meets at run
    simp only [runPrepared]
    rw [store]
    cases ends : watchText .recorder fuel statements (s'.machine, seen) with
    | ok a w =>
      rw [ends] at run
      obtain ⟨g', after, -⟩ := run
      exact ⟨g', after.le, after.state⟩
    | error halt w =>
      rw [ends] at run
      obtain ⟨-, g', after⟩ := run
      exact ⟨g', after.le, after.state⟩

theorem tracked_runItem (h : T.state g s.machine.store seen) (fuel : Nat) (item : Item) :
    T.Next g (final (runItem fuel item s)).machine.store (watchItem fuel item s seen) := by
  cases item with
  | text source => exact tracked_runText hT h fuel source
  | script path =>
    rw [runItem_script]
    unfold watchItem
    dsimp only
    split
    · exact .here h
    · exact tracked_runText hT (s := { s with machine := enterScript path s.machine }) h fuel _

theorem tracked_after (h : T.state g s.machine.store seen) (fuel : Nat) (items : List Item) :
    T.Next g (after fuel items s).machine.store (visits fuel items s seen) := by
  induction items generalizing s g seen with
  | nil => exact .here h
  | cons item items ih => exact (tracked_runItem hT h fuel item).step fun g' _ h' => ih h'

end Session

end Scriptlet
