import Scriptlet.Proofs.LikeBuiltins
import Scriptlet.Proofs.LikePrograms
import Scriptlet.Run.Evaluate

/-!
# Runs of like trees

Each rule keeps machines alike when it is given like trees. By induction on the fuel, so do whole runs. An import
reads the same file in both runs; its nodes are new in both.
-/
namespace Scriptlet

variable {p : Pairing} {α β : Type} {R : α → β → Prop}

/-! ## Watched evaluations -/

namespace Twins

theorem lift {x : Eval α} {x' : Eval β} (h : Twins p.machines R x x') :
    Twins p.worlds R (liftM x : Watched Unit α) (liftM x' : Watched Unit β) := by
  rintro ⟨m, n⟩ ⟨m', n'⟩ hm
  change p.worlds.Ends R (Watched.unseen x (m, n)) (Watched.unseen x' (m', n'))
  unfold Watched.unseen
  dsimp only
  obtain ⟨a, a', t, t', hr, hr', ha, ht⟩ | ⟨e, e', t, t', hr, hr', he⟩ := (h m m' hm).cases
  · rw [hr, hr']
    exact .ok ha ht
  · rw [hr, hr']
    exact .error he

theorem tell (o : Observer Unit) (event event' : Event) :
    Twins p.worlds (fun _ _ => True) (Watched.tell o event) (Watched.tell o event') :=
  fun _ _ hm => .ok trivial hm

theorem inContext (o : Observer Unit) (change : Context → Context) {x : Watched Unit α} {x' : Watched Unit β}
    (h : Twins p.worlds R x x') : Twins p.worlds R (Watched.inContext o change x) (Watched.inContext o change x') := by
  rintro ⟨m, n⟩ ⟨m', n'⟩ hm
  have entered : (m.withContext (change m.context)).Like p (m'.withContext (change m'.context)) :=
    { hm with context := congrArg change hm.context }
  unfold Watched.inContext
  dsimp only
  generalize m.withContext (change m.context) = i at entered
  generalize m'.withContext (change m'.context) = i' at entered
  obtain ⟨a, a', ⟨t, _⟩, ⟨t', _⟩, hr, hr', ha, ht⟩ | ⟨e, e', ⟨t, _⟩, ⟨t', _⟩, hr, hr', he, ht⟩ :=
    (h (i, o ⟨.entering, i⟩ n) (i', o ⟨.entering, i'⟩ n') entered).cases
  · rw [hr, hr']
    exact .ok ha { ht with context := hm.context }
  · rw [hr, hr']
    exact .error ⟨he, ht.change rfl rfl rfl rfl rfl rfl⟩

theorem outOfFuel : Twins p.worlds R (MonadExcept.throw Halt.outOfFuel : Watched Unit α)
    (MonadExcept.throw Halt.outOfFuel : Watched Unit β) :=
  throw fun _ _ hm => ⟨.outOfFuel, hm.stopped⟩

theorem loop {turn : Watched Unit (Option α)} {turn' : Watched Unit (Option β)}
    (h : Twins p.worlds (Option.Rel R) turn turn') (fuel : Nat) :
    Twins p.worlds R (Watched.loop turn fuel) (Watched.loop turn' fuel) := by
  induction fuel with
  | zero => exact outOfFuel
  | succ n ih =>
    apply h.bind
    intro r r' hr
    cases hr with
    | none => exact ih
    | some ha => exact pure ha

end Twins

inductive Flow.Like (p : Pairing) : Flow → Flow → Prop where
  | normal : Like p .normal .normal
  | breaking : Like p .breaking .breaking
  | continuing : Like p .continuing .continuing
  | returning {v v'} : v.Like p v' → Like p (.returning v) (.returning v')

/-- The evaluators for the parts of a node do the same with like trees. -/
structure Inner.Alike (p : Pairing) (inner : Inner Unit) : Prop where
  evaluate {e e' : Expr} : e.Like p.trees e' → Twins p.worlds (Value.Like p) (inner.evaluate e) (inner.evaluate e')
  execute {s s' : Stmt} : s.Like p.trees s' → Twins p.worlds (Flow.Like p) (inner.execute s) (inner.execute s')

namespace Inner.Alike

open Twins (lift)

variable {inner : Inner Unit} (h : inner.Alike p)

theorem tell (inner : Inner Unit) (event event' : Event) :
    Twins p.worlds (fun _ _ => True) (inner.tell event) (inner.tell event') := .tell _ _ _

theorem openFrame (inner : Inner Unit) (region region' : Region) (f : FrameId) :
    Twins p.worlds Eq (inner.openFrame region f) (inner.openFrame region' f) := by
  apply (lift (.newFrame f)).bind
  rintro g _ rfl
  exact (tell inner _ _).bind fun _ _ _ => .pure rfl

include h

theorem runAll {ss ss' : List Stmt} (hs : List.Forall₂ (Stmt.Like p.trees) ss ss') :
    Twins p.worlds (Flow.Like p) (inner.runAll ss) (inner.runAll ss') := by
  induction hs with
  | nil => exact .pure .normal
  | cons hs _ ih =>
    apply (h.execute hs).bind
    intro flow flow' hf
    cases hf with
    | normal => exact ih
    | breaking => exact .pure .breaking
    | continuing => exact .pure .continuing
    | returning hv => exact .pure (.returning hv)

theorem evaluateAll {es es' : List Expr} (he : List.Forall₂ (Expr.Like p.trees) es es') :
    Twins p.worlds (List.Forall₂ (Value.Like p)) (inner.evaluateAll es) (inner.evaluateAll es') := by
  induction he with
  | nil => exact .pure .nil
  | cons he _ ih =>
    apply (h.evaluate he).bind
    intro v v' hv
    exact ih.bind fun _ _ hvs => .pure (.cons hv hvs)

/-! ## Calls -/

omit h in
theorem bindMethod (inner : Inner Unit) {f f' : FunctionObject} (hf : f.Like p f') (id : InstanceId)
    {c c' : ClassObject} (hc : c.Like p c') :
    Twins p.worlds (FunctionObject.Like p) (inner.bindMethod f id c) (inner.bindMethod f' id c') := by
  apply (lift (.bindMethod hf id hc)).bind
  intro g g' hg
  exact (tell inner _ _).bind fun _ _ _ => .pure hg

section Calls

variable {f f' : FunctionObject} (hf : f.Like p f') {vs vs' : List Value}
  (hv : List.Forall₂ (Value.Like p) vs vs')

include hf hv

omit h in
theorem openCall (inner : Inner Unit) : Twins p.worlds Eq (inner.openCall f vs) (inner.openCall f' vs') := by
  unfold Inner.openCall
  rw [hf.frame]
  apply (openFrame inner _ _ f.frame).bind
  rintro g _ rfl
  exact (lift (.defineAll g hf.declaration.params hv)).bind fun _ _ _ => .pure rfl

theorem runBody : Twins p.worlds (Flow.Like p) (inner.runBody f vs) (inner.runBody f' vs') := by
  apply (lift (.checkDepth hf.declaration.name.line)).bind
  intro _ _ _
  apply (openCall hf hv inner).bind
  rintro g _ rfl
  exact .inContext _ _ (h.runAll hf.declaration.body)

theorem callFunction : Twins p.worlds (Value.Like p) (inner.callFunction f vs) (inner.callFunction f' vs') := by
  apply (h.runBody hf hv).bind
  intro flow flow' hflow
  rw [hf.isInitializer, hf.frame]
  apply Twins.ite Iff.rfl
  · apply (lift .getStore).bind
    intro s s' hs
    exact lift (.liftBinding hf.declaration.name.line (hs.frames.getAt f.frame 0 thisName))
  · cases hflow with
    | returning hw => exact .pure hw
    | _ => exact .pure .null

end Calls

omit h in
theorem arity_eq {c c' : ClassObject} (hc : c.Like p c') : c'.arity = c.arity := by
  unfold ClassObject.arity
  obtain ⟨ha, hb⟩ | ⟨f, f', ha, hb, hf⟩ := rel_cases (hc.method? initName)
  · rw [ha, hb]
  · rw [ha, hb]
    exact hf.arity

theorem callValue {v v' : Value} (hv : v.Like p v') {l l' : Nat} (hl : p.Line l l') {ws ws' : List Value}
    (hw : List.Forall₂ (Value.Like p) ws ws') :
    Twins p.worlds (Value.Like p) (inner.callValue v l ws) (inner.callValue v' l' ws') := by
  cases hv with
  | native id f =>
    apply (lift (.checkCount hl f.arity hw)).bind
    intro _ _ _
    exact lift (Builtin.callNative_twins hl hw f)
  | function hf =>
    unfold Inner.callValue
    dsimp only
    rw [hf.arity]
    apply (lift (.checkCount hl _ hw)).bind
    intro _ _ _
    exact h.callFunction hf hw
  | classObject hc =>
    unfold Inner.callValue
    dsimp only
    rw [arity_eq hc]
    apply (lift (.checkCount hl _ hw)).bind
    intro _ _ _
    apply (lift .newInstance).bind
    rintro id _ rfl
    obtain ⟨ha, hb⟩ | ⟨f, f', ha, hb, hf⟩ := rel_cases (hc.method? initName)
    · rw [ha, hb]
      exact .pure (.object id hc)
    · rw [ha, hb]
      apply (bindMethod inner hf id hc).bind
      intro g g' hg
      exact (h.callFunction hg hw).bind fun _ _ _ => .pure (.object id hc)
  | _ => exact lift (.fail hl _)

/-! ## Expressions -/

omit h in
theorem readProperty (inner : Inner Unit) {v v' : Value} (hv : v.Like p v') {n n' : Name}
    (hn : n.Like p.trees n') :
    Twins p.worlds (Value.Like p) (inner.readProperty v n) (inner.readProperty v' n') := by
  have builtin := Builtin.property?_twins hn hv
  cases hv with
  | object id hc =>
    unfold Inner.readProperty
    rw [hn.text]
    apply (lift .getStore).bind
    intro s s' hs
    obtain ⟨ha, hb⟩ | ⟨x, x', ha, hb, hx⟩ := rel_cases (hs.field? id n.text)
    · rw [ha, hb]
      obtain ⟨ha, hb⟩ | ⟨f, f', ha, hb, hf⟩ := rel_cases (hc.method? n.text)
      · rw [ha, hb]
        exact lift (.fail hn.line _)
      · rw [ha, hb]
        exact (bindMethod inner hf id hc).bind fun _ _ hg => .pure (.function hg)
    · rw [ha, hb]
      exact .pure hx
  | classObject hc =>
    unfold Inner.readProperty
    rw [hn.text]
    dsimp only
    obtain ⟨ha, hb⟩ | ⟨f, f', ha, hb, hf⟩ := rel_cases (hc.static? n.text)
    · rw [ha, hb]
      exact lift (.fail hn.line _)
    · rw [ha, hb]
      exact .pure (.function hf)
  | _ =>
    unfold Inner.readProperty
    dsimp only
    obtain ⟨ha, hb⟩ | ⟨x, x', ha, hb, hx⟩ := rel_cases builtin
    · rw [ha, hb]
      exact lift (.fail hn.line _)
    · rw [ha, hb]
      exact lift hx

omit h in
theorem readSuperclass {id id' : NodeId} (hid : p.Node id id') {l l' : Nat} (hl : p.Line l l') :
    Twins p.machines (fun r r' => r.1.Like p r'.1 ∧ r'.2.1 = r.2.1 ∧ r.2.2.Like p r'.2.2)
      (Eval.readSuperclass id l) (Eval.readSuperclass id' l') := by
  unfold Eval.readSuperclass
  apply Twins.get.bind
  intro m m' hm
  rw [hm.distances hid, hm.context]
  cases m.distances[id]? with
  | none => exact .fail hl _
  | some d =>
    dsimp only
    apply (Twins.liftBinding hl (hm.store.frames.getAt m.context.frame d superName)).bind
    intro v v' hv
    cases hv with
    | classObject hc =>
      apply (Twins.liftBinding hl (hm.store.frames.getAt m.context.frame (d - 1) thisName)).bind
      intro w w' hw
      cases hw with
      | object i hd => exact .pure ⟨hc, rfl, hd⟩
      | _ => exact .fail hl _
    | _ => exact .fail hl _

omit h in
theorem readSuper (inner : Inner Unit) {id id' : NodeId} (hid : p.Node id id') {l l' : Nat} (hl : p.Line l l')
    {n n' : Name} (hn : n.Like p.trees n') :
    Twins p.worlds (Value.Like p) (inner.readSuper id l n) (inner.readSuper id' l' n') := by
  unfold Inner.readSuper
  apply (lift (readSuperclass hid hl)).bind
  rintro ⟨parent, _, c⟩ ⟨parent', i, c'⟩ ⟨hparent, rfl, hc⟩
  dsimp only
  rw [hn.text]
  obtain ⟨ha, hb⟩ | ⟨f, f', ha, hb, hf⟩ := rel_cases (hparent.method? n.text)
  · rw [ha, hb]
    exact lift (.fail hn.line _)
  · rw [ha, hb]
    exact (bindMethod inner hf i hc).bind fun _ _ hg => .pure (.function hg)

omit h in
theorem expandConnective_like {a a' b b' : Expr} (ha : a.Like p.trees a') (op : Connective) {l l' : Nat}
    (hl : p.Line l l') (hb : b.Like p.trees b') :
    (Expr.expandConnective a op l b).Like p.trees (Expr.expandConnective a' op l' b') := by
  cases op with
  | and => exact .logical ha hl hb
  | or => exact .logical ha hl hb
  | xor => exact .logical (.logical ha hl (.unary hl hb)) hl (.logical (.unary hl ha) hl hb)
  | nor => exact .unary hl (.group (.logical ha hl hb))
  | nand => exact .unary hl (.group (.logical ha hl hb))

theorem evaluateLogical {a a' b b' : Expr} (ha : a.Like p.trees a') (op : Connective) {l l' : Nat}
    (hl : p.Line l l') (hb : b.Like p.trees b') :
    Twins p.worlds (Value.Like p) (inner.evaluateLogical a op l b) (inner.evaluateLogical a' op l' b') := by
  have expanded := h.evaluate (expandConnective_like ha op hl hb)
  cases op with
  | or =>
    apply (h.evaluate ha).bind
    intro v v' hv
    rw [hv.isTruthy]
    exact .ite Iff.rfl (.pure hv) (h.evaluate hb)
  | and =>
    apply (h.evaluate ha).bind
    intro v v' hv
    rw [hv.isTruthy]
    exact .ite Iff.rfl (h.evaluate hb) (.pure hv)
  | _ => exact expanded

omit h in
theorem assignedInstance {v v' : Value} (hv : v.Like p v') {n n' : Name} (hn : n.Like p.trees n') :
    Twins p.machines Eq (Eval.assignedInstance v n) (Eval.assignedInstance v' n') := by
  cases hv with
  | object id hc => exact .pure rfl
  | classObject hc => exact .fail hn.line _
  | _ => exact .fail hn.line _

theorem evaluateExpr {e e' : Expr} (he : e.Like p.trees e') :
    Twins p.worlds (Value.Like p) (inner.evaluateExpr e) (inner.evaluateExpr e') := by
  cases he with
  | literal value => cases value <;> exact .pure (by constructor)
  | group he => exact h.evaluate he
  | array hes => exact (h.evaluateAll hes).bind fun _ _ hvs => lift (.newList .array hvs)
  | unary hl he => exact (h.evaluate he).bind fun _ _ hv => lift (Builtin.unaryOp_twins hl _ hv)
  | binary ha hl hb =>
    apply (h.evaluate ha).bind
    intro v v' hv
    exact (h.evaluate hb).bind fun _ _ hw => lift (Builtin.binaryOp_twins hl _ hv hw)
  | logical ha hl hb => exact h.evaluateLogical ha _ hl hb
  | «variable» hv => exact lift (.readName hv.node hv.name)
  | this hid hl => exact lift (.readName hid ⟨rfl, hl⟩)
  | assign hv he =>
    apply (h.evaluate he).bind
    intro w w' hw
    apply (tell inner _ _).bind
    intro _ _ _
    exact (lift (.assignName hv hw)).bind fun _ _ _ => .pure hw
  | call hf hl hes =>
    apply (h.evaluate hf).bind
    intro callee callee' hcallee
    exact (h.evaluateAll hes).bind fun _ _ hvs => h.callValue hcallee hl hvs
  | get ho hn => exact (h.evaluate ho).bind fun _ _ hv => readProperty inner hv hn
  | set ho hn he =>
    apply (h.evaluate ho).bind
    intro o o' hobject
    apply (lift (assignedInstance hobject hn)).bind
    rintro id _ rfl
    apply (h.evaluate he).bind
    intro v v' hv
    rw [hn.text]
    apply (lift (.modifyStore fun _ _ hs => hs.setField id _ hv)).bind
    intro _ _ _
    exact .pure hv
  | super hid hl hm => exact readSuper inner hid hl hm

/-! ## Classes -/

theorem evaluateSuperclass {v v' : Option Variable} (hv : Option.Rel (Variable.Like p.trees) v v') :
    Twins p.worlds (Option.Rel (ClassObject.Like p)) (inner.evaluateSuperclass v) (inner.evaluateSuperclass v') := by
  cases hv with
  | none => exact .pure .none
  | some hv =>
    apply (h.evaluate (.variable hv)).bind
    intro w w' hw
    cases hw with
    | classObject hc => exact .pure (.some hc)
    | _ => exact lift (.fail hv.name.line _)

omit h in
theorem openClass (inner : Inner Unit) (s s' : Stmt) (f : FrameId) {c c' : Option ClassObject}
    (hc : Option.Rel (ClassObject.Like p) c c') :
    Twins p.worlds Eq (inner.openClass s f c) (inner.openClass s' f c') := by
  cases hc with
  | none => exact .pure rfl
  | some hc =>
    apply (lift (.newSuperFrame f hc)).bind
    rintro g _ rfl
    exact (tell inner _ _).bind fun _ _ _ => .pure rfl

section Classes

variable {n n' : Name} (hn : n.Like p.trees n') {v v' : Option Variable}
  (hv : Option.Rel (Variable.Like p.trees) v v') {ms ms' : List FunctionDecl}
  (hms : List.Forall₂ (Routine.Like p.trees) ms ms') {ss ss' : List FunctionDecl}
  (hss : List.Forall₂ (Routine.Like p.trees) ss ss')

include hn hms hss

omit h in
theorem makeClass (inner : Inner Unit) (f : FrameId) {c c' : Option ClassObject}
    (hc : Option.Rel (ClassObject.Like p) c c') :
    Twins p.worlds (ClassObject.Like p) (inner.makeClass f c n v ms ss) (inner.makeClass f c' n' v' ms' ss') := by
  have ancestors : List.Forall₂ (ClassLayer.Like p) ((c.map ClassObject.layers).getD [])
      ((c'.map ClassObject.layers).getD []) := by
    cases hc with
    | none => exact .nil
    | some hc => exact hc.layers
  apply (openClass inner _ _ f hc).bind
  rintro g _ rfl
  apply (lift (.methodTable g true hms (.empty))).bind
  intro t t' ht
  apply (openFrame inner _ _ g).bind
  rintro i _ rfl
  apply (lift (.methodTable i false hss (.empty))).bind
  intro u u' hu
  apply (lift .freshIdentity).bind
  rintro id _ rfl
  exact .pure ⟨⟨rfl, hn.text, ht, hu⟩, ancestors⟩

include hv in
theorem declareClass :
    Twins p.worlds (fun _ _ => True) (inner.declareClass n v ms ss) (inner.declareClass n' v' ms' ss') := by
  apply (h.evaluateSuperclass hv).bind
  intro c c' hc
  apply (lift .currentFrame).bind
  rintro f _ rfl
  apply (lift (.define f hn .null false)).bind
  intro _ _ _
  apply (makeClass hn hms hss inner f hc).bind
  intro d d' hd
  exact lift (.assignFrom f hn (.classObject hd))

end Classes

/-! ## Imports -/

theorem runDeclarations {l l' : Nat} (hl : p.Line l l') (path : String) (place : Place) {ss ss' : List Stmt}
    (hs : List.Forall₂ (Stmt.Like p.trees) ss ss') :
    Twins p.worlds (fun _ _ => True) (inner.runDeclarations l path place ss)
      (inner.runDeclarations l' path place ss') := by
  unfold Inner.runDeclarations
  apply (tell inner _ _).bind
  intro _ _ _
  apply Twins.bind (R := fun _ _ => True)
  · apply Twins.tryCatch
    · have run : Twins p.worlds (Flow.Like p) (inner.runImported place ss) (inner.runImported place ss') :=
        Twins.inContext inner.observer (·.enterFile place) (h.runAll hs)
      exact run.bind fun _ _ _ => .pure trivial
    · -- what has stopped stays so: its fault is reported, and the import fails
      rintro e e' ⟨m, n⟩ ⟨m', n'⟩ ⟨he, hm⟩
      cases he with
      | fault f hline => exact .error ⟨.fault _ hl, hm.report ⟨hline, rfl, rfl⟩⟩
      | outOfFuel => exact .error ⟨.outOfFuel, hm⟩
  · intro _ _ _
    apply lift
    apply Twins.modifyGet
    · intro _ _ _
      trivial
    · intro m m' hm
      exact { hm with imported := congrArg (place :: ·) hm.imported }

theorem importFile {l l' : Nat} (hl : p.Line l l') (path : String) :
    Twins p.worlds (fun _ _ => True) (inner.importFile l path) (inner.importFile l' path) := by
  unfold Inner.importFile
  apply (lift .getMachine).bind
  intro m m' hm
  rw [hm.files, hm.context, hm.imported]
  split
  · exact lift (.fail hl _)
  · next place _ =>
    apply Twins.ite Iff.rfl
    · exact lift (.fail hl _)
    · apply Twins.ite Iff.rfl
      · exact .pure trivial
      · cases m.files.readSource (Path.ofNames place) with
        | error e => exact lift (.fail hl _)
        | ok text =>
          apply (lift (.readDeclarations hl path text)).bind
          intro ss ss' hs
          exact h.runDeclarations hl path place hs

/-! ## Statements -/

theorem runBlock {ss ss' : List Stmt} (hs : List.Forall₂ (Stmt.Like p.trees) ss ss') :
    Twins p.worlds (Flow.Like p) (inner.runBlock ss) (inner.runBlock ss') := by
  apply (lift .currentFrame).bind
  rintro f _ rfl
  apply (openFrame inner _ _ f).bind
  rintro g _ rfl
  exact .inContext _ _ (h.runAll hs)

theorem evaluateAny {e e' : Option Expr} (he : Option.Rel (Expr.Like p.trees) e e') :
    Twins p.worlds (fun _ _ => True) (inner.evaluateAny e) (inner.evaluateAny e') := by
  cases he with
  | none => exact .pure trivial
  | some he => exact (h.evaluate he).bind fun _ _ _ => .pure trivial

theorem whileTurn {c c' : Expr} (hc : c.Like p.trees c') {s s' : Stmt} (hs : s.Like p.trees s')
    {e e' : Option Expr} (he : Option.Rel (Expr.Like p.trees) e e') :
    Twins p.worlds (Option.Rel (Flow.Like p)) (inner.whileTurn c s e) (inner.whileTurn c' s' e') := by
  have again : Twins p.worlds (Option.Rel (Flow.Like p)) (do inner.evaluateAny e; return none)
      (do inner.evaluateAny e'; return none) := (h.evaluateAny he).bind fun _ _ _ => .pure .none
  apply (h.evaluate hc).bind
  intro v v' hv
  rw [hv.isTruthy]
  apply Twins.ite Iff.rfl
  · exact .pure (.some .normal)
  · apply (h.execute hs).bind
    intro flow flow' hf
    cases hf with
    | breaking => exact .pure (.some .normal)
    | returning hw => exact .pure (.some (.returning hw))
    | normal => exact again
    | continuing => exact again

theorem doTurn {s s' : Stmt} (hs : s.Like p.trees s') {c c' : Expr} (hc : c.Like p.trees c') :
    Twins p.worlds (Option.Rel (Flow.Like p)) (inner.doTurn s c) (inner.doTurn s' c') := by
  have again : Twins p.worlds (Option.Rel (Flow.Like p))
      (do if (← inner.evaluate c).isTruthy then return none else return some .normal)
      (do if (← inner.evaluate c').isTruthy then return none else return some .normal) := by
    apply (h.evaluate hc).bind
    intro v v' hv
    rw [hv.isTruthy]
    exact .ite Iff.rfl (.pure .none) (.pure (.some .normal))
  apply (h.execute hs).bind
  intro flow flow' hf
  cases hf with
  | breaking => exact .pure (.some .normal)
  | returning hw => exact .pure (.some (.returning hw))
  | normal => exact again
  | continuing => exact again

omit h in
theorem runLoop (inner : Inner Unit) {turn turn' : Watched Unit (Option Flow)}
    (ht : Twins p.worlds (Option.Rel (Flow.Like p)) turn turn') :
    Twins p.worlds (Flow.Like p) (inner.runLoop turn) (inner.runLoop turn') := by
  unfold Inner.runLoop
  exact .inContext _ _ (.loop ht inner.fuel)

theorem initialValue {e e' : Option Expr} (he : Option.Rel (Expr.Like p.trees) e e') :
    Twins p.worlds (Value.Like p) (inner.initialValue e) (inner.initialValue e') := by
  cases he with
  | none => exact .pure .undefined
  | some he => exact h.evaluate he

omit h in
theorem leaveLoop {l l' : Nat} (hl : p.Line l l') (fault : Fault) {flow : Flow} (hf : flow.Like p flow) :
    Twins p.worlds (Flow.Like p)
      (do
        if (← Eval.getContext).loopDepth = 0 then Eval.fail l fault
        return flow)
      (do
        if (← Eval.getContext).loopDepth = 0 then Eval.fail l' fault
        return flow) := by
  apply (lift .getContext).bind
  rintro c _ rfl
  apply Twins.ite Iff.rfl
  · exact (lift (.fail hl fault)).bind fun _ _ (_ : True) => .pure hf
  · exact .pure hf

theorem executeStmt {s s' : Stmt} (hs : s.Like p.trees s') :
    Twins p.worlds (Flow.Like p) (inner.executeStmt s) (inner.executeStmt s') := by
  cases hs with
  | expression he =>
    apply (h.evaluate he).bind
    intro v v' hv
    apply (lift .getMachine).bind
    intro m m' hm
    rw [hm.settings]
    apply Twins.ite Iff.rfl
    · exact (lift (.writeLine hv)).bind fun _ _ _ => .pure .normal
    · exact .pure .normal
  | print he =>
    apply (h.evaluate he).bind
    intro v v' hv
    exact (lift (.writeLine hv)).bind fun _ _ _ => .pure .normal
  | letDecl hn he =>
    apply (h.initialValue he).bind
    intro v v' hv
    apply (lift .currentFrame).bind
    rintro f _ rfl
    exact (lift (.define f hn hv false)).bind fun _ _ _ => .pure .normal
  | constDecl hn he =>
    apply (h.evaluate he).bind
    intro v v' hv
    apply (lift .currentFrame).bind
    rintro f _ rfl
    exact (lift (.define f hn hv true)).bind fun _ _ _ => .pure .normal
  | block hb => exact h.runBlock hb
  | ifThen hc ht =>
    apply (h.evaluate hc).bind
    intro v v' hv
    rw [hv.isTruthy]
    exact .ite Iff.rfl (h.execute ht) (.pure .normal)
  | ifElse hc ht he =>
    apply (h.evaluate hc).bind
    intro v v' hv
    rw [hv.isTruthy]
    exact .ite Iff.rfl (h.execute ht) (h.execute he)
  | whileLoop hc hb hi => exact runLoop inner (h.whileTurn hc hb hi)
  | doWhile hb hc => exact runLoop inner (h.doTurn hb hc)
  | breakLoop hl => exact leaveLoop hl _ .breaking
  | continueLoop hl => exact leaveLoop hl _ .continuing
  | returnValue hl he =>
    cases he with
    | none => exact .pure (.returning .null)
    | some he => exact (h.evaluate he).bind fun _ _ hv => .pure (.returning hv)
  | function hd =>
    apply (lift .currentFrame).bind
    rintro f _ rfl
    apply (lift (.newFunction f false hd)).bind
    intro g g' hg
    exact (lift (.define f hd.name (.function hg) false)).bind fun _ _ _ => .pure .normal
  | classDecl hn hv hms hss => exact (h.declareClass hn hv hms hss).bind fun _ _ _ => .pure .normal
  | importFile path hl => exact (h.importFile hl path).bind fun _ _ _ => .pure .normal

end Inner.Alike

/-! ## Whole runs -/

theorem innerAt_alike (p : Pairing) (o : Observer Unit) (fuel : Nat) : (innerAt o fuel).Alike p := by
  induction fuel with
  | zero => exact ⟨fun _ => .outOfFuel, fun _ => .outOfFuel⟩
  | succ n ih =>
    constructor
    · intro e e' he
      exact (Twins.tell o _ _).bind fun _ _ _ => ih.evaluateExpr he
    · intro s s' hs
      exact (Twins.tell o _ _).bind fun _ _ _ => ih.executeStmt hs

theorem watchAll_twins (o : Observer Unit) (fuel : Nat) {ss ss' : List Stmt}
    (hs : List.Forall₂ (Stmt.Like p.trees) ss ss') :
    Twins p.worlds (fun _ _ => True) (watchAll o fuel ss) (watchAll o fuel ss') := by
  induction hs with
  | nil => exact .pure trivial
  | cons hs _ ih => exact ((innerAt_alike p o fuel).execute hs).bind fun _ _ _ => ih

theorem Twins.unwatched {x : Watched Unit α} {x' : Watched Unit β} (h : Twins p.worlds R x x') :
    Twins p.machines R x.unwatched x'.unwatched := by
  intro m m' hm
  unfold Watched.unwatched
  obtain ⟨a, a', t, t', hr, hr', ha, ht⟩ | ⟨e, e', t, t', hr, hr', he⟩ := (h (m, ()) (m', ()) hm).cases
  · rw [hr, hr']
    exact .ok ha ht
  · rw [hr, hr']
    exact .error he

/-- Like texts are run alike. -/
theorem interpret_twins (fuel : Nat) {ss ss' : List Stmt} (hs : List.Forall₂ (Stmt.Like p.trees) ss ss') :
    Twins p.machines (fun _ _ => True) (interpret fuel ss) (interpret fuel ss') :=
  .unwatched ((Twins.tell _ _ _).bind fun _ _ _ => watchAll_twins _ fuel hs)

end Scriptlet
