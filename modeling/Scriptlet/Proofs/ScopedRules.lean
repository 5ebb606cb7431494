import Scriptlet.Proofs.ScopedSteps
import Scriptlet.Run.Evaluate

/-!
# Rules keep frames in scope

If the evaluators of the parts of a node are safe, then so is the rule for the node. A call runs the body in
the frames that the function keeps, a block in a new frame, and everything else in the frames it starts with.
-/
namespace Scriptlet

open World Layers

/-- A world in which the part of the text inside the layers can be run. -/
structure World.Ready (w : World) (text : List Stmt) (layers : List Layer) : Prop where
  inv : w.Inv
  place : w.At layers
  started : Started text w.2

theorem World.Ready.grow {w w' : World} {text : List Stmt} {layers : List Layer} (h : w.Ready text layers)
    (hi : w'.Inv) (hg : w.Grows w' noFrame) : w'.Ready text layers :=
  ⟨hi, h.place.grow h.inv hg, h.started.mono hg.visits⟩

/-- A value that is returned is good. -/
def World.GoodFlow (w : World) : Flow → Prop
  | .returning v => w.Good v
  | _ => True

theorem World.Extends.goodFlow {w w' : World} {changing : FrameId → Prop} (h : w.Extends w' changing)
    {flow : Flow} (hf : w.GoodFlow flow) : w'.GoodFlow flow := by
  cases flow with
  | returning v => exact h.good hf
  | _ => trivial

/-- What binds no names does not leave the place. -/
theorem Safe.stay {α : Type} {w : World} {text : List Stmt} {layers : List Layer} {changing : FrameId → Prop}
    {x : Watched (List Visit) α} {R : α → World → Prop} (hx : Safe noFrame w x R) (hw : w.Ready text layers) :
    Safe changing w x fun a w' => w'.At layers ∧ R a w' :=
  hx.mono hw.inv (fun _ _ h => h.elim) fun _ _ _ hg hr => ⟨hw.place.grow hw.inv hg, hr⟩

/-- A superclass clause yields a class. -/
def World.GoodParent (w : World) : Option Variable → Option ClassObject → Prop
  | none, none => True
  | some _, some c => w.GoodClass c
  | _, _ => False

/-- If there is a superclass, then the clause was the last that was shown. -/
def World.JustNamed (w : World) (declaration : Stmt) (parent : Option ClassObject) : Prop :=
  ∀ c, parent = some c → ∃ clause rest, w.2 = clause :: rest ∧ clause.NamesSuperclass declaration c

theorem World.Extends.goodParent {w w' : World} {changing : FrameId → Prop} (h : w.Extends w' changing)
    {superclass : Option Variable} {parent : Option ClassObject} (hp : w.GoodParent superclass parent) :
    w'.GoodParent superclass parent := by
  match superclass, parent, hp with
  | none, none, _ => trivial
  | some _, some c, hc => exact h.goodClass hc

theorem World.GoodParent.extended {w : World} {superclass : Option Variable} {parent : Option ClassObject}
    (hp : w.GoodParent superclass parent) {own : ClassLayer}
    (hm : ∀ name f, own.methods.find? name = some f → w.GoodMethod f)
    (hs : ∀ name f, own.statics.find? name = some f → w.GoodFunction f) :
    w.GoodClass ⟨own, (parent.map ClassObject.layers).getD []⟩ := by
  intro layer hl
  rcases List.mem_cons.1 hl with rfl | hl
  · exact ⟨hm, hs⟩
  · match superclass, parent, hp with
    | none, none, _ => cases hl
    | some _, some c, hc => exact hc layer hl

/-- The evaluators for the parts are safe, and the run is recorded. Expressions bind no names, and a statement
binds the name that it declares. -/
structure Inner.Scoped (inner : Inner (List Visit)) : Prop where
  observer : inner.observer = .recorder
  /-- Of the evaluation of a variable nothing else is shown. -/
  «variable» {w : World} {text : List Stmt} {layers : List Layer} {use : Variable} : w.Ready text layers →
    Placed text layers (.use use.reading) →
    Safe noFrame w (inner.evaluate (.variable use)) fun v w' => w'.Good v ∧ w' = w.tell (.evaluating (.variable use)) ∧
      Eval.readName use.id use.name w.1 = .ok v w.1
  evaluate {w : World} {text : List Stmt} {layers : List Layer} {e : Expr} : w.Ready text layers →
    (∀ u ∈ e.uses, Placed text layers (.use u)) →
    Safe noFrame w (inner.evaluate e) fun v w' => w'.Good v
  execute {w : World} {text : List Stmt} {layers : List Layer} {s : Stmt} : w.Ready text layers →
    Placed text layers (.statement s) →
    Safe (· = w.1.context.frame) w (inner.execute s) fun flow w' => w'.At (after s layers) ∧ w'.GoodFlow flow

/-! ## Values in the store -/

namespace World

variable {w : World}

theorem plain_good : Builtin.Plain w.Good := by
  constructor <;> intros <;> trivial

theorem Inv.getAt (hi : w.Inv) {f : FrameId} {d : Nat} {name : String} {v : Value}
    (h : w.frames.getAt f d name = .ok v) : w.Good v := by
  obtain ⟨g, b, hb, rfl, -⟩ := Frames.binding_of_getAt h
  exact hi.values.bindings g name b hb

theorem Inv.get (hi : w.Inv) {f : FrameId} {name : String} {v : Value}
    (h : w.frames.get f name = .ok v) : w.Good v := by
  obtain ⟨g, b, hb, rfl, -⟩ := Frames.binding_of_get h
  exact hi.values.bindings g name b hb

theorem GoodClass.method? {c : ClassObject} (hc : w.GoodClass c) {name : String} {f : FunctionObject}
    (h : c.method? name = some f) : w.GoodMethod f := by
  obtain ⟨layer, hl, hf⟩ := List.exists_of_findSome?_eq_some h
  exact (hc layer hl).1 name f hf

theorem GoodClass.static? {c : ClassObject} (hc : w.GoodClass c) {name : String} {f : FunctionObject}
    (h : c.static? name = some f) : w.GoodFunction f := by
  obtain ⟨layer, hl, hf⟩ := List.exists_of_findSome?_eq_some h
  exact (hc layer hl).2 name f hf

/-! ## Uses of names -/

variable {text : List Stmt} {layers : List Layer}

theorem Ready.tellEvaluating (hw : w.Ready text layers) {e : Expr}
    (hu : ∀ u ∈ e.uses, Placed text layers (.use u)) : (w.tell (.evaluating e)).Inv := by
  have used {u : Use} (hr : e.reading? = some u) : u ∈ e.uses ∧ u.access ≠ .assign := by
    cases e with
    | «variable» | this | super => cases hr; exact ⟨List.mem_singleton.2 rfl, nofun⟩
    | _ => cases hr
  refine hw.inv.tell _ (fun _ h => nomatch h) (fun _ _ h => nomatch h) ⟨?_, fun _ _ _ h => nomatch h⟩
    ⟨?_, fun _ _ h => (nomatch h), fun _ _ h => (nomatch h), ?_, fun _ h => (nomatch h),
      fun _ _ h => nomatch h⟩
  · intro e' u d he hr hd
    cases he
    obtain ⟨s, f, layer, hreach, -, hread⟩ := hw.inv.reaches hw.place hw.started (hu u (used hr).1) hd
    exact ⟨s, f, layer, hreach, hread (used hr).2⟩
  · intro e' u he hr
    cases he
    exact ⟨text, layers, hw.started, hw.inv.texts text hw.started, hu u (used hr).1, hw.place⟩
  · rintro _ ⟨⟩
    exact ⟨text, layers, hw.started, hu, hw.place⟩

theorem Ready.tellAssigning (hw : w.Ready text layers) {target : Variable}
    (hp : Placed text layers (.use target.assigning)) (value : Value) :
    (w.tell (.assigning target value)).Inv := by
  refine hw.inv.tell _ (fun _ h => nomatch h) (fun _ _ h => nomatch h) ⟨fun _ _ _ h => (nomatch h), ?_⟩
    ⟨fun _ _ h => (nomatch h), fun _ _ h => (nomatch h), fun _ _ h => (nomatch h), fun _ h => (nomatch h),
      fun _ h => (nomatch h), fun _ _ h => nomatch h⟩
  intro target' value' d he hd
  cases he
  obtain ⟨s, f, layer, hreach, hbinds, -⟩ := hw.inv.reaches hw.place hw.started hp hd
  exact ⟨s, f, layer, hreach, hbinds⟩

theorem Inv.readName (hi : w.Inv) (id : NodeId) (name : Name) :
    Eval.Reads w.1 (Eval.readName id name) w.Good :=
  .readName id name (fun _ _ => hi.getAt) fun _ => hi.get

end World

theorem Expr.mem_uses_of_expandConnective {left right : Expr} {op : Connective} {line : Nat} {u : Use}
    (h : u ∈ (Expr.expandConnective left op line right).uses) : u ∈ left.uses ++ right.uses := by
  cases op <;> simp only [expandConnective, uses, List.mem_append] at h ⊢ <;> tauto

theorem length_of_accepts {f : FunctionObject} {n : Nat} (h : f.arity.accepts n = true) :
    f.declaration.params.length = n := by
  rw [FunctionObject.arity, Arity.accepts, Arity.exactly, Bool.and_eq_true, decide_eq_true_eq,
    decide_eq_true_eq] at h
  exact Nat.le_antisymm h.1 h.2

/-- A variable is bound once its initial value is known. -/
theorem Safe.declare {w : World} {text : List Stmt} {layers : List Layer} (hw : w.Ready text layers) {s : Stmt}
    {name : Name} {value : Watched (List Visit) Value} (constant : Bool) (hp : Placed text layers (.statement s)) (hs : s.declared? = some name)
    (hv : w.Ready text (mark name.text false layers) → Safe noFrame w value fun v w' => w'.Good v) :
    Safe (· = w.1.context.frame) w
      (do
        let v ← value
        Eval.define (← Eval.currentFrame) name v constant
        return .normal : Watched (List Visit) Flow)
      fun flow w' => w'.At (mark name.text true layers) ∧ w'.GoodFlow flow := by
  have hn := (hw.inv.texts text hw.started).fresh hp hs
  refine .bind ((hv ⟨hw.inv, hw.place.announce hn, hw.started⟩).stay hw) ?_
  rintro v w₁ hi₁ hg₁ ⟨hat, hgood⟩
  refine .bindReads hi₁ .currentFrame ?_
  rintro _ rfl
  rw [← hg₁.context]
  have grown := w₁.grows_bind w₁.1.context.frame name.text v constant
  refine .bind (.define hi₁ constant (hat.unbound hn) (grown.good hgood)) ?_
  rintro _ _ hi₂ - rfl
  exact .pure hi₂ ⟨At.define hat name.text v constant, trivial⟩

namespace Inner.Scoped

variable {inner : Inner (List Visit)} (h : inner.Scoped) {w : World} {text : List Stmt} {layers : List Layer}
include h

theorem evaluateAll (hw : w.Ready text layers) {es : List Expr}
    (hu : ∀ u ∈ Expr.listUses es, Placed text layers (.use u)) :
    Safe noFrame w (inner.evaluateAll es) fun vs w' => ∀ v ∈ vs, w'.Good v := by
  induction es generalizing w with
  | nil => exact .pure hw.inv fun v hv => nomatch hv
  | cons e es ih =>
    refine .bind (h.evaluate hw fun u hmem => hu u (List.mem_append_left _ hmem)) fun v w' hi hg hv => ?_
    refine .bind (ih (hw.grow hi hg) fun u hmem => hu u (List.mem_append_right _ hmem)) ?_
    intro vs w'' hi' hg' hvs
    refine .pure hi' fun v' hmem => ?_
    rcases List.mem_cons.1 hmem with rfl | hmem
    · exact hg'.good hv
    · exact hvs v' hmem

theorem runAll (hw : w.Ready text layers) {ss : List Stmt} (hp : Placed text layers (.statements ss)) :
    Safe (· = w.1.context.frame) w (inner.runAll ss) fun flow w' => w'.GoodFlow flow := by
  induction ss generalizing w layers with
  | nil => exact .pure hw.inv trivial
  | cons s ss ih =>
    refine .bind (h.execute hw hp.first) fun flow w' hi hg hpost => ?_
    cases flow with
    | normal =>
      have rest := ih ⟨hi, hpost.1, hw.started.mono hg.visits⟩ hp.rest
      rwa [hg.context] at rest
    | breaking => exact .pure hi hpost.2
    | continuing => exact .pure hi hpost.2
    | returning v => exact .pure hi hpost.2

/-! ## Calls -/

theorem openCall (hi : w.Inv) {f : FunctionObject} (hs : w.Stack f.frame layers)
    (hd : (f.declaration.params.map Name.text).Nodup) {args : List Value}
    (hlen : f.declaration.params.length = args.length) (hv : ∀ v ∈ args, w.Good v) :
    Safe (w.frames.size ≤ ·) w (inner.openCall f args) fun frame w' =>
      w.frames.size ≤ frame ∧ w'.Matches frame (.routine f.declaration :: layers) := by
  unfold Inner.openCall
  have distinct (d : FunctionDecl) (h : Region.routine f.declaration = .routine d) :
      (d.params.map Name.text).Nodup := Region.routine.inj h ▸ hd
  refine .bind (.openFrame hi h.observer _ nofun nofun distinct) ?_
  rintro frame w' hi' hg ⟨hnew, hge, hempty⟩
  have bound := Safe.defineAll hi' hnew.lt hlen (fun v hmem => hg.good (hv v hmem)) ∅
    (fun name => iff_of_false (hempty name) nofun) (fun p _ => hempty p.text) hd
  refine .bind (bound.mono hi' (fun _ _ heq => heq ▸ hge) fun _ _ _ _ hb => hb) ?_
  intro _ w'' hi'' hg' hb
  refine .pure hi'' ⟨hge, .inside (hnew.opened.mono hg'.visits) ?_ (hg'.stack (hg.stack hs)) ?_, ?_⟩
  · exact (hg'.enclosing _ hnew.lt).trans hnew.lies
  · exact fun name => (hb name).2
  · intro layer outer heq name
    cases heq
    exact (hb name).1

/-- The body runs in the frames around its declaration, with a new frame for the parameters. -/
theorem runBody (hi : w.Inv) {f : FunctionObject} (hf : w.GoodFunction f) {args : List Value}
    (hlen : f.declaration.params.length = args.length) (hv : ∀ v ∈ args, w.Good v) :
    Safe noFrame w (inner.runBody f args) fun flow w' => w'.GoodFlow flow := by
  obtain ⟨text, layers, hstarted, hp, hstack⟩ := hf
  apply Safe.fresh hi
  refine .bindReads hi (.checkDepth _) fun _ _ => ?_
  refine .bind (h.openCall hi hstack ((hi.texts text hstarted).params hp) hlen hv) ?_
  rintro frame w' hi' hg ⟨hge, hm⟩
  have entered := w'.extends_enter (·.enterCall frame)
  have ready : (w'.enter (·.enterCall frame)).Ready text (.routine f.declaration :: layers) :=
    ⟨hi'.enter _, hm.extend hi' entered fun h => h, hstarted.mono (hg.visits.trans entered.visits)⟩
  have body := h.runAll ready hp
  refine .inContext h.observer (body.mono ready.inv (fun g _ heq => ?_) fun _ _ _ _ hflow => hflow) ?_
  · exact heq ▸ hge
  · exact fun flow w'' _ _ hflow => (w''.extends_leave _).goodFlow hflow

theorem callFunction (hi : w.Inv) {f : FunctionObject} (hf : w.GoodFunction f) {args : List Value}
    (hlen : f.declaration.params.length = args.length) (hv : ∀ v ∈ args, w.Good v) :
    Safe noFrame w (inner.callFunction f args) fun v w' => w'.Good v := by
  unfold Inner.callFunction
  refine .bind (h.runBody hi hf hlen hv) fun flow w' hi' _ hflow => .ite ?_ ?_
  · refine .bindReads hi' .getStore ?_
    rintro _ rfl
    exact .reads hi' (.getAt _ fun _ => hi'.getAt) fun _ hg => hg
  · cases flow with
    | returning v => exact .pure hi' hflow
    | _ => exact .pure hi' trivial

/-- An initializer takes as many arguments as its class. -/
theorem callValue (hi : w.Inv) {callee : Value} (hc : w.Good callee) (line : Nat) {args : List Value}
    (hv : ∀ v ∈ args, w.Good v) :
    Safe noFrame w (inner.callValue callee line args) fun v w' => w'.Good v := by
  unfold Inner.callValue
  split
  · refine .bindReads hi (.checkCount _ _ _) fun _ _ => ?_
    exact .carries hi (Builtin.callNative_carries plain_good line _ hv)
  · refine .bindReads hi (.checkCount _ _ _) fun _ hcount => ?_
    exact h.callFunction hi hc (length_of_accepts hcount) hv
  · next c =>
    refine .bindReads hi (.checkCount _ _ _) fun _ hcount => ?_
    refine .bind (.newInstance hi) fun id w' hi' hg _ => ?_
    split
    · next init hinit =>
      have hclass := hg.goodClass hc
      refine .bind (.bindMethod hi' h.observer id (hclass.method? hinit) hclass) ?_
      rintro f w'' hi'' hg' ⟨hgood, hdecl⟩
      have hlen : f.declaration.params.length = args.length := by
        rw [hdecl]
        rw [ClassObject.arity, hinit] at hcount
        exact length_of_accepts hcount
      have called := h.callFunction hi'' hgood hlen fun v hmem => hg'.good (hg.good (hv v hmem))
      exact .bind called fun _ w₃ hi₃ hg'' _ => .pure hi₃ (hg''.goodClass (hg'.goodClass hclass))
    · exact .pure hi' (hg.goodClass hc)
  · exact .fail hi _ rfl

/-! ## Expressions -/

theorem readProperty (hi : w.Inv) {object : Value} (ho : w.Good object) (name : Name) :
    Safe noFrame w (inner.readProperty object name) fun v w' => w'.Good v := by
  unfold Inner.readProperty
  split
  · next id c =>
    refine .bindReads hi .getStore ?_
    rintro _ rfl
    split
    · next v hv => exact .pure hi (hi.values.fields id name.text v hv)
    · split
      · next method hm =>
        refine .bind (.bindMethod hi h.observer id (GoodClass.method? ho hm) ho) ?_
        exact fun f w' hi' _ hf => .pure hi' hf.1
      · exact .fail hi _ rfl
  · split
    · next method hm => exact .pure hi (GoodClass.static? ho hm)
    · exact .fail hi _ rfl
  · split
    · next read hread => exact .carries hi (Builtin.property?_carries plain_good ho hread)
    · exact .fail hi _ rfl

theorem readSuper (hi : w.Inv) (id : NodeId) (line : Nat) (method : Name) :
    Safe noFrame w (inner.readSuper id line method) fun v w' => w'.Good v := by
  unfold Inner.readSuper
  refine .bindReads hi (.readSuperclass (P := w.Good) id line fun _ _ _ => hi.getAt) ?_
  rintro ⟨parent, instanceId, c⟩ ⟨hparent, hc⟩
  dsimp only
  split
  · next found hf =>
    refine .bind (.bindMethod hi h.observer instanceId (GoodClass.method? hparent hf) hc) ?_
    exact fun f w' hi' _ hf => .pure hi' hf.1
  · exact .fail hi _ rfl

theorem evaluateLogical (hw : w.Ready text layers) (left : Expr) (op : Connective) (line : Nat) (right : Expr)
    (hu : ∀ u ∈ left.uses ++ right.uses, Placed text layers (.use u)) :
    Safe noFrame w (inner.evaluateLogical left op line right) fun v w' => w'.Good v := by
  have hleft := h.evaluate hw fun u hmem => hu u (List.mem_append_left _ hmem)
  have hright {w' : World} (hi : w'.Inv) (hg : w.Grows w' noFrame) :=
    h.evaluate (hw.grow hi hg) fun u hmem => hu u (List.mem_append_right _ hmem)
  unfold Inner.evaluateLogical
  split
  · exact .bind hleft fun v w' hi hg hv => .ite (.pure hi hv) (hright hi hg)
  · exact .bind hleft fun v w' hi hg hv => .ite (hright hi hg) (.pure hi hv)
  · exact h.evaluate hw fun u hmem => hu u (Expr.mem_uses_of_expandConnective hmem)

theorem evaluateExpr (hw : w.Ready text layers) {e : Expr} (hu : ∀ u ∈ e.uses, Placed text layers (.use u)) :
    Safe noFrame w (inner.evaluateExpr e) fun v w' => w'.Good v := by
  cases e with
  | literal v => cases v <;> exact .pure hw.inv trivial
  | group e => exact h.evaluate hw hu
  | array es =>
    refine .bind (h.evaluateAll hw hu) fun vs w' hi _ hvs => ?_
    exact .carries hi (Builtin.newCollection_carries plain_good (by decide) hvs)
  | unary op line e =>
    refine .bind (h.evaluate hw hu) fun v w' hi _ _ => ?_
    exact .carries hi (Builtin.unaryOp_carries plain_good _ _ _)
  | binary l op line r =>
    refine .bind (h.evaluate hw fun u hmem => hu u (List.mem_append_left _ hmem)) fun v w' hi hg _ => ?_
    refine .bind (h.evaluate (hw.grow hi hg) fun u hmem => hu u (List.mem_append_right _ hmem)) ?_
    exact fun v' w'' hi' _ _ => .carries hi' (Builtin.binaryOp_carries plain_good _ _ _ _)
  | logical l op line r => exact h.evaluateLogical hw l op line r hu
  | «variable» use => exact .reads hw.inv (hw.inv.readName _ _) fun _ hv => hv
  | this id line => exact .reads hw.inv (hw.inv.readName _ _) fun _ hv => hv
  | assign target e =>
    refine .bind (h.evaluate hw fun u hmem => hu u (List.mem_append_left _ hmem)) fun v w' hi hg hv => ?_
    have hp := hu target.assigning (List.mem_append_right _ (List.mem_singleton.2 rfl))
    refine .bind (.tell h.observer ((hw.grow hi hg).tellAssigning hp v)) ?_
    rintro _ _ hi' hg' rfl
    refine .bind (.assignName hi' target (hg'.good hv)) fun _ w₃ hi₃ hg₃ _ => ?_
    exact .pure hi₃ (hg₃.good (hg'.good hv))
  | call f line args =>
    refine .bind (h.evaluate hw fun u hmem => hu u (List.mem_append_left _ hmem)) fun v w' hi hg hv => ?_
    refine .bind (h.evaluateAll (hw.grow hi hg) fun u hmem => hu u (List.mem_append_right _ hmem)) ?_
    exact fun vs w'' hi' hg' hvs => h.callValue hi' (hg'.good hv) line hvs
  | get o name => exact .bind (h.evaluate hw hu) fun v w' hi _ hv => h.readProperty hi hv name
  | set o name e =>
    refine .bind (h.evaluate hw fun u hmem => hu u (List.mem_append_right _ hmem)) fun v w' hi hg hv => ?_
    refine .bindReads hi (.assignedInstance v name) fun id _ => ?_
    refine .bind (h.evaluate (hw.grow hi hg) fun u hmem => hu u (List.mem_append_left _ hmem)) ?_
    intro v' w'' hi' _ hv'
    exact .bind (.setField hi' id _ hv') fun _ w₃ hi₃ hg₃ _ => .pure hi₃ (hg₃.good hv')
  | super id line method => exact h.readSuper hw.inv id line method

/-! ## Classes -/

theorem evaluateSuperclass (hw : w.Ready text layers) {superclass : Option Variable}
    (hu : ∀ u ∈ superclass.toList.map Variable.reading, Placed text layers (.use u)) (name : Name)
    (methods statics : List FunctionDecl) :
    Safe noFrame w (inner.evaluateSuperclass superclass) fun parent w' =>
      w'.GoodParent superclass parent ∧ w'.JustNamed (.classDecl name superclass methods statics) parent := by
  cases superclass with
  | none => exact .pure hw.inv ⟨trivial, nofun⟩
  | some use =>
    refine .bind (h.variable hw (hu _ (List.mem_singleton.2 rfl))) ?_
    rintro v w' hi - ⟨hv, rfl, hread⟩
    cases v with
    | classObject c =>
      refine .pure hi ⟨hv, ?_⟩
      rintro _ ⟨⟩
      exact ⟨_, _, rfl, name, use, methods, statics, rfl, rfl, hread⟩
    | _ => exact .fail hi _ rfl

theorem openClass (hi : w.Inv) {frame : FrameId} {name : Name} {superclass : Option Variable}
    {parent : Option ClassObject} {methods statics : List FunctionDecl}
    (hs : w.Stack frame (mark name.text true layers)) (hparent : w.GoodParent superclass parent)
    (hnamed : w.JustNamed (.classDecl name superclass methods statics) parent) :
    Safe noFrame w
      (inner.openClass (.classDecl name superclass methods statics) frame parent) fun f w' =>
        w'.Stack f (ofClass name superclass methods statics layers) := by
  match superclass, parent, hparent with
  | none, none, _ => exact .pure hi hs
  | some use, some c, hc =>
    refine (Safe.openSuper hi h.observer frame hc (hnamed c rfl)).mono hi (fun _ _ hf => hf) ?_
    rintro f w' - hg ⟨hnew, hsuper⟩
    refine .inside hnew.opened hnew.lies (hg.stack hs) ?_
    intro n hn
    rw [Layer.superclass, Table.find?_insert] at hn
    split at hn
    · next heq => exact heq ▸ hsuper
    · cases hn

/-- The methods of the class keep the frames around them. -/
theorem makeClass (hi : w.Inv) (ht : Started text w.2) {frame : FrameId} {name : Name}
    {superclass : Option Variable} {parent : Option ClassObject} {methods statics : List FunctionDecl}
    (hp : Placed text layers (.statement (.classDecl name superclass methods statics)))
    (hs : w.Stack frame (mark name.text true layers)) (hparent : w.GoodParent superclass parent)
    (hnamed : w.JustNamed (.classDecl name superclass methods statics) parent) :
    Safe noFrame w (inner.makeClass frame parent name superclass methods statics) fun c w' =>
      w'.GoodClass c := by
  refine .bind (h.openClass hi hs hparent hnamed) fun classFrame w₁ hi₁ hg₁ hstack => ?_
  have method (f : FunctionObject) (hf : f.frame = classFrame) (hd : f.declaration ∈ methods) :
      w₁.GoodMethod f :=
    ⟨text, _, ht.mono hg₁.visits, hp.method hd, hf ▸ hstack⟩
  refine .bind (.apart hi₁ (.methodTable classFrame true (fun _ _ hf => nomatch hf) method)) ?_
  intro instanceMethods w₂ hi₂ hg₂ hmethods
  refine .bind (.openFrame hi₂ h.observer _ nofun nofun nofun) ?_
  rintro staticFrame w₃ hi₃ hg₃ ⟨hnew, -, -⟩
  have hg := hg₁.trans (hg₂.trans hg₃)
  have inStatics : w₃.Stack staticFrame
      (.statics (.classDecl name superclass methods statics) ::
        ofClass name superclass methods statics layers) :=
    .inside hnew.opened hnew.lies ((hg₂.trans hg₃).stack hstack) fun _ hn => nomatch hn
  have static (f : FunctionObject) (hf : f.frame = staticFrame) (hd : f.declaration ∈ statics) :
      w₃.GoodFunction f :=
    ⟨text, _, ht.mono hg.visits, hp.static hd, hf ▸ inStatics⟩
  refine .bind (.apart hi₃ (.methodTable staticFrame false (fun _ _ hf => nomatch hf) static)) ?_
  intro staticMethods w₄ hi₄ hg₄ hstatics
  refine .bind (.apart hi₄ .freshIdentity) fun id w₅ hi₅ hg₅ _ => ?_
  have last := hg₄.trans hg₅
  refine .pure hi₅ (((hg.trans last).goodParent hparent).extended ?_ ?_)
  · exact fun name f hf => ((hg₂.trans hg₃).trans last).goodMethod (hmethods name f hf)
  · exact fun name f hf => last.goodFunction (hstatics name f hf)

/-- The class has its name before its methods are made. -/
theorem declareClass (hw : w.Ready text layers) {name : Name} {superclass : Option Variable}
    {methods statics : List FunctionDecl}
    (hp : Placed text layers (.statement (.classDecl name superclass methods statics))) :
    Safe (· = w.1.context.frame) w (inner.declareClass name superclass methods statics) fun _ w' =>
      w'.At (mark name.text true layers) := by
  have clause := h.evaluateSuperclass hw (fun u hu => hp.use hu) name methods statics
  refine .bind (clause.stay hw) ?_
  rintro parent w₁ hi₁ hg₁ ⟨hat, hparent, hnamed⟩
  refine .bindReads hi₁ .currentFrame ?_
  rintro _ rfl
  rw [← hg₁.context]
  have fresh := (hw.inv.texts text hw.started).fresh hp rfl
  refine .bind (.define hi₁ false (hat.unbound fresh) trivial) ?_
  rintro _ w₂ hi₂ hg₂ rfl
  have named : World.Ready _ text (mark name.text true layers) :=
    ⟨hi₂, At.define hat name.text .null false, hw.started.mono (hg₁.visits.trans hg₂.visits)⟩
  have made := h.makeClass hi₂ named.started hp named.place.stack (hg₂.goodParent hparent) hnamed
  refine .bind (made.stay named) ?_
  rintro c w₃ hi₃ hg₃ ⟨hat₃, hc⟩
  have stored : Safe noFrame w₃ (liftM (Eval.assignFrom w₁.1.context.frame name (.classObject c))) fun _ _ => True :=
    .assignFrom hi₃ _ name hc
  exact stored.mono hi₃ (fun _ _ h => h.elim) fun _ _ _ hg _ => hat₃.grow hi₃ hg

/-! ## Statements -/

theorem runBlock (hw : w.Ready text layers) {body : List Stmt}
    (hp : Placed text layers (.statement (.block body))) :
    Safe noFrame w (inner.runBlock body) fun flow w' => w'.GoodFlow flow := by
  apply Safe.fresh hw.inv
  refine .bindReads hw.inv .currentFrame ?_
  rintro _ rfl
  refine .bind (.openFrame hw.inv h.observer _ nofun nofun nofun) ?_
  rintro frame w' hi hg ⟨hnew, hge, hempty⟩
  have hm : w'.Matches frame (.block body :: layers) := by
    refine ⟨.inside hnew.opened hnew.lies (hg.stack hw.place.stack) fun _ hn => (nomatch hn), ?_⟩
    exact fun _ name hb => absurd hb (hempty name)
  have entered := w'.extends_enter fun c => { c with frame }
  have ready : (w'.enter fun c => { c with frame }).Ready text (.block body :: layers) :=
    ⟨hi.enter _, hm.extend hi entered fun h => h, hw.started.mono (hg.visits.trans entered.visits)⟩
  have run := h.runAll ready hp.block
  refine .inContext h.observer (run.mono ready.inv (fun g _ heq => ?_) fun _ _ _ _ hflow => hflow) ?_
  · exact heq ▸ hge
  · exact fun flow w'' _ _ hflow => (w''.extends_leave _).goodFlow hflow

/-- A branch declares nothing. -/
theorem branch (hw : w.Ready text layers) {s t : Stmt} (hp : Placed text layers (.statement s))
    (ht : t ∈ s.branches) :
    Safe (· = w.1.context.frame) w (inner.execute t) fun flow w' => w'.At layers ∧ w'.GoodFlow flow := by
  have nothing : after t layers = layers := by
    rw [after, ((hw.inv.texts text hw.started).sound hp).1.branch ht]
  have run := h.execute hw (hp.branch ht)
  rwa [nothing] at run

/-- At the end of a turn the loop is at the same place. -/
theorem runLoop (hw : w.Ready text layers) {turn : Watched (List Visit) (Option Flow)}
    (ht : ∀ w' : World, w'.Ready text layers → w'.1.context.frame = w.1.context.frame →
      Safe (· = w.1.context.frame) w' turn fun r w'' =>
        w''.At layers ∧ ∀ flow, r = some flow → w''.GoodFlow flow) :
    Safe (· = w.1.context.frame) w (inner.runLoop turn) fun flow w' => w'.At layers ∧ w'.GoodFlow flow := by
  have turns (n : Nat) (w' : World) (hw' : w'.Ready text layers)
      (hf : w'.1.context.frame = w.1.context.frame) :
      Safe (· = w.1.context.frame) w' (Watched.loop turn n) fun flow w'' =>
        w''.At layers ∧ w''.GoodFlow flow := by
    induction n generalizing w' with
    | zero => exact .throw hw'.inv rfl
    | succ n ih =>
      refine .bind (ht w' hw' hf) ?_
      rintro r w'' hi hg ⟨hat, hflow⟩
      cases r with
      | some flow => exact .pure hi ⟨hat, hflow flow rfl⟩
      | none => exact ih w'' ⟨hi, hat, hw'.started.mono hg.visits⟩ ((congrArg Context.frame hg.context).trans hf)
  have entered := w.extends_enter fun c => { c with loopDepth := c.loopDepth + 1 }
  have ready : (w.enter fun c => { c with loopDepth := c.loopDepth + 1 }).Ready text layers :=
    ⟨hw.inv.enter _, Matches.extend hw.place hw.inv entered fun h => h, hw.started.mono entered.visits⟩
  refine .inContext h.observer (turns inner.fuel _ ready rfl) ?_
  rintro flow w' hi hg ⟨hat, hflow⟩
  have left := w'.extends_leave w.1.context
  refine ⟨?_, left.goodFlow hflow⟩
  have hm : w'.Matches w'.1.context.frame layers := hat
  rw [hg.context] at hm
  exact hm.extend hi left fun h => h

theorem evaluateAny (hw : w.Ready text layers) {e : Option Expr}
    (hu : ∀ u ∈ Expr.optionUses e, Placed text layers (.use u)) :
    Safe noFrame w (inner.evaluateAny e) fun _ _ => True := by
  cases e with
  | none => exact .pure hw.inv trivial
  | some e => exact .bind (h.evaluate hw hu) fun _ w' hi _ _ => .pure hi trivial

theorem whileTurn (hw : w.Ready text layers) {c : Expr} {body : Stmt} {increment : Option Expr}
    (hp : Placed text layers (.statement (.whileLoop c body increment))) :
    Safe (· = w.1.context.frame) w (inner.whileTurn c body increment) fun r w' =>
      w'.At layers ∧ ∀ flow, r = some flow → w'.GoodFlow flow := by
  unfold Inner.whileTurn
  refine .bind ((h.evaluate hw fun u hu => hp.use (List.mem_append_left _ hu)).stay hw) ?_
  rintro v w₁ hi₁ hg₁ ⟨hat₁, -⟩
  have hw₁ : w₁.Ready text layers := ⟨hi₁, hat₁, hw.started.mono hg₁.visits⟩
  refine .ite (.pure hi₁ ⟨hat₁, fun _ heq => Option.some.inj heq ▸ trivial⟩) ?_
  rw [← hg₁.context]
  refine .bind (h.branch hw₁ hp (List.mem_singleton.2 rfl)) ?_
  rintro flow w₂ hi₂ hg₂ ⟨hat₂, hflow⟩
  have hw₂ : w₂.Ready text layers := ⟨hi₂, hat₂, hw₁.started.mono hg₂.visits⟩
  have rest : Safe (· = w₁.1.context.frame) w₂
      (do
        inner.evaluateAny increment
        return none : Watched (List Visit) (Option Flow))
      fun r w' => w'.At layers ∧ ∀ flow, r = some flow → w'.GoodFlow flow := by
    have used := h.evaluateAny hw₂ fun u hu => hp.use (List.mem_append_right _ hu)
    exact .bind (used.stay hw₂) fun _ w₃ hi₃ _ hpost => .pure hi₃ ⟨hpost.1, fun _ heq => nomatch heq⟩
  cases flow with
  | normal | continuing => exact rest
  | breaking => exact .pure hi₂ ⟨hat₂, fun _ heq => Option.some.inj heq ▸ trivial⟩
  | returning v => exact .pure hi₂ ⟨hat₂, fun _ heq => Option.some.inj heq ▸ hflow⟩

theorem doTurn (hw : w.Ready text layers) {c : Expr} {body : Stmt}
    (hp : Placed text layers (.statement (.doWhile body c))) :
    Safe (· = w.1.context.frame) w (inner.doTurn body c) fun r w' =>
      w'.At layers ∧ ∀ flow, r = some flow → w'.GoodFlow flow := by
  unfold Inner.doTurn
  refine .bind (h.branch hw hp (List.mem_singleton.2 rfl)) ?_
  rintro flow w₁ hi₁ hg₁ ⟨hat₁, hflow⟩
  have hw₁ : w₁.Ready text layers := ⟨hi₁, hat₁, hw.started.mono hg₁.visits⟩
  have rest : Safe (· = w.1.context.frame) w₁
      (do if (← inner.evaluate c).isTruthy then return none else return some .normal)
      fun r w' => w'.At layers ∧ ∀ flow, r = some flow → w'.GoodFlow flow := by
    refine .bind ((h.evaluate hw₁ fun u hu => hp.use hu).stay hw₁) ?_
    rintro v w₂ hi₂ - ⟨hat₂, -⟩
    exact .ite (.pure hi₂ ⟨hat₂, fun _ heq => nomatch heq⟩)
      (.pure hi₂ ⟨hat₂, fun _ heq => Option.some.inj heq ▸ trivial⟩)
  cases flow with
  | normal | continuing => exact rest
  | breaking => exact .pure hi₁ ⟨hat₁, fun _ heq => Option.some.inj heq ▸ trivial⟩
  | returning v => exact .pure hi₁ ⟨hat₁, fun _ heq => Option.some.inj heq ▸ hflow⟩

/-! ## Imports -/

/-- A text that was started can be run in the global frame. -/
theorem runGlobally (hi : w.Inv) (ht : Started text w.2) {change : Context → Context}
    (hc : ∀ c, (change c).frame = globalFrame) :
    Safe (· = globalFrame) w (inner.inContext change (inner.runAll text)) fun _ _ => True := by
  have current : (w.enter change).1.context.frame = globalFrame := hc w.1.context
  have run := h.runAll ⟨hi.enter change, at_global current, ht.mono (w.extends_enter change).visits⟩ .whole
  rw [current] at run
  exact .inContext h.observer run fun _ _ _ _ _ => trivial

theorem runDeclarations (hi : w.Inv) (line : Nat) (path : String) (place : Place) {declarations : List Stmt}
    (hr : w.Prepared declarations) :
    Safe noFrame w (inner.runDeclarations line path place declarations) fun _ _ => True := by
  unfold Inner.runDeclarations
  refine .bind (.tell h.observer (hi.tellStarting hr)) ?_
  rintro _ _ hi' - rfl
  have started : Started declarations (w.tell (.starting declarations)).2 := ⟨_, List.mem_cons_self .., rfl⟩
  refine .bind (R := fun _ _ => True) (.tryGlobal ?_ ?_) fun _ w' hi'' _ _ => ?_
  · exact .bind (h.runGlobally hi' started fun _ => rfl) fun _ w' hi'' _ _ => .pure hi'' trivial
  · intro halt w' hi'' _
    cases halt with
    | fault line' f =>
      exact .bind (.apart hi'' (.report _)) fun _ w'' hi₃ _ _ => .fail hi₃ _ rfl
    | outOfFuel => exact .throw hi'' rfl
  · exact .apart hi'' (.markImported place)

theorem importSource (hi : w.Inv) (line : Nat) (path : String) (place : Place)
    (source : Except SourceError String) :
    Safe noFrame w (inner.importSource line path place source) fun _ _ => True := by
  cases source with
  | error e => exact .fail hi _ rfl
  | ok text =>
    refine .bind (.readDeclarations hi line path text) fun declarations w' hi' _ hr => ?_
    exact h.runDeclarations hi' line path place hr

theorem importFile (hi : w.Inv) (line : Nat) (path : String) :
    Safe noFrame w (inner.importFile line path) fun _ _ => True := by
  unfold Inner.importFile
  refine .bindReads hi .getMachine fun m _ => ?_
  split
  · exact .fail hi _ rfl
  · exact .ite (.fail hi _ rfl) (.ite (.pure hi trivial) (h.importSource hi line path _ _))

/-! ## All statements -/

theorem initialValue (hw : w.Ready text layers) {init : Option Expr}
    (hu : ∀ u ∈ Expr.optionUses init, Placed text layers (.use u)) :
    Safe noFrame w (inner.initialValue init) fun v w' => w'.Good v := by
  cases init with
  | none => exact .pure hw.inv trivial
  | some e => exact h.evaluate hw hu

theorem executeStmt (hw : w.Ready text layers) {s : Stmt} (hp : Placed text layers (.statement s)) :
    Safe (· = w.1.context.frame) w (inner.executeStmt s) fun flow w' =>
      w'.At (after s layers) ∧ w'.GoodFlow flow := by
  cases s with
  | expression e =>
    refine Safe.stay ?_ hw
    refine .bind (h.evaluate hw fun u hu => hp.use hu) fun v w₁ hi₁ _ _ => ?_
    refine .bindReads hi₁ .getMachine fun m _ => .ite ?_ (.pure hi₁ trivial)
    exact .bind (.apart hi₁ (.writeLine v)) fun _ w₂ hi₂ _ _ => .pure hi₂ trivial
  | print e =>
    refine Safe.stay ?_ hw
    refine .bind (h.evaluate hw fun u hu => hp.use hu) fun v w₁ hi₁ _ _ => ?_
    exact .bind (.apart hi₁ (.writeLine v)) fun _ w₂ hi₂ _ _ => .pure hi₂ trivial
  | letDecl name init => exact .declare hw false hp rfl fun hw' => h.initialValue hw' fun u hu => hp.use hu
  | constDecl name init => exact .declare hw true hp rfl fun hw' => h.evaluate hw' fun u hu => hp.use hu
  | block body => exact (h.runBlock hw hp).stay hw
  | ifThen c t =>
    refine .bind ((h.evaluate hw fun u hu => hp.use hu).stay hw) ?_
    rintro v w₁ hi₁ hg₁ ⟨hat, -⟩
    rw [← hg₁.context]
    refine .ite (h.branch ⟨hi₁, hat, hw.started.mono hg₁.visits⟩ hp (List.mem_singleton.2 rfl)) ?_
    exact .pure hi₁ ⟨hat, trivial⟩
  | ifElse c t e =>
    refine .bind ((h.evaluate hw fun u hu => hp.use hu).stay hw) ?_
    rintro v w₁ hi₁ hg₁ ⟨hat, -⟩
    have hw₁ : w₁.Ready text layers := ⟨hi₁, hat, hw.started.mono hg₁.visits⟩
    rw [← hg₁.context]
    refine .ite (h.branch hw₁ hp (List.mem_cons_self ..)) (h.branch hw₁ hp ?_)
    exact List.mem_cons_of_mem _ (List.mem_singleton.2 rfl)
  | whileLoop c body inc => exact h.runLoop hw fun w' hw' hf => hf ▸ h.whileTurn hw' hp
  | doWhile body c => exact h.runLoop hw fun w' hw' hf => hf ▸ h.doTurn hw' hp
  | breakLoop line | continueLoop line =>
    refine Safe.stay ?_ hw
    refine .bindReads hw.inv .getContext fun c _ => ?_
    exact .ite (.bind (.fail hw.inv _ rfl (R := fun _ _ => False)) fun _ _ _ _ never => never.elim)
      (.pure hw.inv trivial)
  | returnValue line value =>
    refine Safe.stay ?_ hw
    cases value with
    | none => exact .pure hw.inv trivial
    | some e => exact .bind (h.evaluate hw fun u hu => hp.use hu) fun v w₁ hi₁ _ hv => .pure hi₁ hv
  | function d =>
    refine .bindReads hw.inv .currentFrame ?_
    rintro _ rfl
    refine .bind ((Safe.apart hw.inv (.newFunction _ false d)).stay hw) ?_
    rintro f w₁ hi₁ hg₁ ⟨hat, hframe, hdecl⟩
    rw [← hg₁.context] at hframe ⊢
    have named := At.define hat d.name.text (.function f) false
    have good : (w₁.bind w₁.1.context.frame d.name.text (.function f) false).GoodFunction f := by
      refine ⟨text, mark d.name.text true layers, hw.started.mono hg₁.visits, ?_, ?_⟩
      · rw [hdecl]
        exact hp.function
      · rw [hframe]
        exact named.stack
    have fresh := (hw.inv.texts text hw.started).fresh hp rfl
    refine .bind (.define hi₁ false (hat.unbound fresh) good) ?_
    rintro _ _ hi₂ - rfl
    exact .pure hi₂ ⟨named, trivial⟩
  | classDecl name superclass methods statics =>
    exact .bind (h.declareClass hw hp) fun _ w₁ hi₁ _ hat => .pure hi₁ ⟨hat, trivial⟩
  | importFile line path =>
    refine Safe.stay ?_ hw
    exact .bind (h.importFile hw.inv line path) fun _ w₁ hi₁ _ _ => .pure hi₁ trivial

end Inner.Scoped

end Scriptlet
