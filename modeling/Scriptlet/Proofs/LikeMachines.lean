import Scriptlet.Proofs.LikeStores
import Scriptlet.Proofs.Steps
import Scriptlet.Proofs.Twins

/-!
# Machines that are alike

Machines are alike if their stores are and if corresponding nodes have the same distance; all else is equal.
Evaluations of like trees on like machines are twins: they yield like values on like machines. Where they
stop, they stop at the same fault, and have reported the same problems. Only the lines may have moved.
-/
namespace Scriptlet

/-! ## The relation -/

section Relation

variable (p : Pairing)

structure Machine.Like (m m' : Machine) : Prop where
  settings : m'.settings = m.settings
  context : m'.context = m.context
  store : m.store.Like p m'.store
  distances {id id' : NodeId} : p.Node id id' → m'.distances[id']? = m.distances[id]?
  nextNode : p.Fresh m.nextNode m'.nextNode
  imported : m'.imported = m.imported
  output : m'.output = m.output
  reporter : m'.reporter = m.reporter
  files : m'.files = m.files
  clock : m'.clock = m.clock

structure Diagnostic.Like (d d' : Diagnostic) : Prop where
  line : p.Line d.line d'.line
  problem : d'.problem = d.problem
  location : d'.location = d.location

/-- Like diagnostics were sent to the same place. -/
structure Machine.Reported (base : Machine) (ds ds' : List Diagnostic) (m m' : Machine) : Prop where
  diagnostics : List.Forall₂ (Diagnostic.Like p) ds ds'
  reporter : m.reporter = (base.reportAll ds).reporter
  files : m.files = (base.reportAll ds).files
  reporter' : m'.reporter = (base.reportAll ds').reporter
  files' : m'.files = (base.reportAll ds').files

/-- What two runs that have stopped have in common. -/
structure Machine.Stopped (m m' : Machine) : Prop where
  output : m'.output = m.output
  reported : ∃ base ds ds', Machine.Reported p base ds ds' m m'

inductive Halt.Like : Halt → Halt → Prop where
  | fault {l l'} (f : Fault) : p.Line l l' → Like (.fault l f) (.fault l' f)
  | outOfFuel : Like .outOfFuel .outOfFuel

/-- The coupling of evaluations. -/
def Pairing.machines : Coupling Halt Machine where
  state := Machine.Like p
  failure h m h' m' := h.Like p h' ∧ m.Stopped p m'

/-- The coupling of evaluations that no one watches. -/
def Pairing.worlds : Coupling Halt (Machine × Unit) where
  state w w' := w.1.Like p w'.1
  failure h w h' w' := h.Like p h' ∧ w.1.Stopped p w'.1

end Relation

variable {p : Pairing} {α β : Type} {R : α → β → Prop}

theorem Pairing.Line.refl (l : Nat) : p.Line l l := .inl rfl

/-- Every node corresponds to itself, and lines may have moved. -/
def Pairing.same (shift : Nat) : Pairing := ⟨0, 0, fun _ _ => False, shift⟩

theorem Pairing.same_node {shift : Nat} {id id' : NodeId} : (same shift).Node id id' ↔ id' = id := by
  constructor
  · rintro (⟨-, -, h⟩ | ⟨i, rfl, rfl⟩)
    · exact h.elim
    · rfl
  · rintro rfl
    exact .inr ⟨id', (Nat.zero_add id').symm, (Nat.zero_add id').symm⟩

theorem Pairing.same_refl (shift : Nat) : (same shift).trees.Refl :=
  ⟨fun _ => same_node.2 rfl, Line.refl⟩

theorem Machine.like_same (m : Machine) (shift : Nat) : m.Like (.same shift) m where
  settings := rfl
  context := rfl
  store := m.store.like_refl (Pairing.same_refl shift)
  distances h := by rw [Pairing.same_node.1 h]
  nextNode := ⟨m.nextNode, (Nat.zero_add _).symm, (Nat.zero_add _).symm⟩
  imported := rfl
  output := rfl
  reporter := rfl
  files := rfl
  clock := rfl

theorem Machine.Like.stopped {m m' : Machine} (h : m.Like p m') : m.Stopped p m' :=
  ⟨h.output, m, [], [], .nil, rfl, rfl, h.reporter, h.files⟩

/-- Only the output and the reports count. -/
theorem Machine.Stopped.change {m m' n n' : Machine} (h : m.Stopped p m') (ho : n.output = m.output)
    (hr : n.reporter = m.reporter) (hf : n.files = m.files) (ho' : n'.output = m'.output)
    (hr' : n'.reporter = m'.reporter) (hf' : n'.files = m'.files) : n.Stopped p n' := by
  obtain ⟨output, base, ds, ds', r⟩ := h
  refine ⟨by rw [ho', output, ho], base, ds, ds', r.diagnostics, ?_, ?_, ?_, ?_⟩
  · rw [hr, r.reporter]
  · rw [hf, r.files]
  · rw [hr', r.reporter']
  · rw [hf', r.files']

/-! ## Reports -/

theorem Machine.reportAll_concat (m : Machine) (ds : List Diagnostic) (d : Diagnostic) :
    m.reportAll (ds ++ [d]) = (m.reportAll ds).report d :=
  m.reportAll_append ds [d]

theorem Machine.Stopped.report {m m' : Machine} (h : m.Stopped p m') {d d' : Diagnostic} (hd : d.Like p d') :
    (m.report d).Stopped p (m'.report d') := by
  obtain ⟨output, base, ds, ds', reported⟩ := h
  constructor
  · rw [(m.report_same d).output, (m'.report_same d').output, output]
  · have left := report_congr reported.reporter reported.files d
    have right := report_congr reported.reporter' reported.files' d'
    rw [← reportAll_concat] at left right
    have diagnostics := List.rel_append reported.diagnostics (.cons hd .nil)
    exact ⟨base, ds ++ [d], ds' ++ [d'], diagnostics, left.1, left.2, right.1, right.2⟩

theorem Machine.Stopped.reportAll {m m' : Machine} (h : m.Stopped p m') {ds ds' : List Diagnostic}
    (hd : List.Forall₂ (Diagnostic.Like p) ds ds') : (m.reportAll ds).Stopped p (m'.reportAll ds') := by
  induction hd generalizing m m' with
  | nil => exact h
  | cons hd _ ih => exact ih (h.report hd)

/-! ## Evaluations -/

namespace Twins

theorem fail {l l' : Nat} (hl : p.Line l l') (f : Fault) : Twins p.machines R (Eval.fail l f) (Eval.fail l' f) :=
  throw fun _ _ hm => ⟨.fault f hl, hm.stopped⟩

/-- A check in front of an evaluation. -/
theorem guard {c c' : Prop} [Decidable c] [Decidable c'] (hc : c ↔ c') {l l' : Nat} (hl : p.Line l l')
    (f : Fault) {x : Eval α} {x' : Eval β} (hx : Twins p.machines R x x') :
    Twins p.machines R (do
      if c then Eval.fail l f
      x) (do
      if c' then Eval.fail l' f
      x') :=
  ite hc (bind (R := fun _ _ => True) (fail hl f) fun _ _ _ => hx) hx

theorem liftBinding {l l' : Nat} (hl : p.Line l l') {r : Except BindingError α} {r' : Except BindingError β}
    (hr : SameError R r r') : Twins p.machines R (Eval.liftBinding l r) (Eval.liftBinding l' r') := by
  cases hr with
  | ok ha => exact pure ha
  | error e => exact fail hl _

theorem refuse {l l' : Nat} (hl : p.Line l l') (e : Option BindingError) :
    Twins p.machines (fun _ _ => True) (Eval.refuse l e) (Eval.refuse l' e) := by
  cases e with
  | none => exact pure trivial
  | some e => exact fail hl _

theorem getMachine : Twins p.machines (Machine.Like p) Eval.getMachine Eval.getMachine := get

theorem getStore : Twins p.machines (Store.Like p) Eval.getStore Eval.getStore :=
  get.bind fun _ _ hm => pure hm.store

theorem getContext : Twins p.machines Eq Eval.getContext Eval.getContext :=
  get.bind fun _ _ hm => pure hm.context.symm

theorem currentFrame : Twins p.machines Eq Eval.currentFrame Eval.currentFrame :=
  getContext.bind fun _ _ hc => pure (congrArg Context.frame hc)

theorem modifyStore {f f' : Store → Store} (h : ∀ s s', s.Like p s' → (f s).Like p (f' s')) :
    Twins p.machines (fun _ _ => True) (Eval.modifyStore f) (Eval.modifyStore f') :=
  modifyGet (fun _ _ _ => trivial) fun m m' hm => { hm with store := h m.store m'.store hm.store }

theorem withStore {f : Store → α × Store} {f' : Store → β × Store}
    (hr : ∀ s s', s.Like p s' → R (f s).1 (f' s').1) (hs : ∀ s s', s.Like p s' → (f s).2.Like p (f' s').2) :
    Twins p.machines R (Eval.withStore f) (Eval.withStore f') := by
  intro m m' hm
  exact .ok (hr _ _ hm.store) { hm with store := hs _ _ hm.store }

theorem freshIdentity : Twins p.machines Eq Eval.freshIdentity Eval.freshIdentity :=
  withStore (fun _ _ hs => hs.nextIdentity.symm) fun _ _ hs => hs.freshIdentity

theorem newFrame (enclosing : FrameId) :
    Twins p.machines Eq (Eval.newFrame enclosing) (Eval.newFrame enclosing) :=
  withStore (fun _ _ hs => hs.frames.size.symm) fun _ _ hs => hs.newFrame enclosing

theorem newInstance :
    Twins p.machines Eq (Eval.withStore Store.newInstance) (Eval.withStore Store.newInstance) :=
  withStore (fun _ _ hs => hs.instances.length_eq) fun _ _ hs => hs.newInstance

theorem newCollection (kind : CollectionKind) {vs vs' : Array Value} (hv : Elements.Paired (Value.Like p) vs vs') :
    Twins p.machines (Value.Like p) (Eval.newCollection kind vs) (Eval.newCollection kind vs') := by
  have made : Twins p.machines Eq (Eval.withStore (·.allocate vs))
      (Eval.withStore (·.allocate vs')) :=
    withStore (fun _ _ hs => hs.collections.length_eq) fun _ _ hs => hs.allocate hv
  apply made.bind
  rintro i _ rfl
  exact pure (.collection kind i)

theorem newList (kind : CollectionKind) {vs vs' : List Value} (hv : List.Forall₂ (Value.Like p) vs vs') :
    Twins p.machines (Value.Like p) (Eval.newCollection kind vs.toArray) (Eval.newCollection kind vs'.toArray) :=
  newCollection kind hv

theorem newSet {vs vs' : List Value} (hv : List.Forall₂ (Value.Like p) vs vs') :
    Twins p.machines (Value.Like p) (Eval.newSet vs) (Eval.newSet vs') :=
  getStore.bind fun _ _ hs => newList .set (hs.distinct hv)

theorem textOf {v v' : Value} (hv : v.Like p v') :
    Twins p.machines Eq (Eval.textOf v) (Eval.textOf v') :=
  getStore.bind fun _ _ hs => pure (hs.text hv).symm

theorem writeLine {v v' : Value} (hv : v.Like p v') :
    Twins p.machines (fun _ _ => True) (Eval.writeLine v) (Eval.writeLine v') := by
  apply (textOf hv).bind
  rintro t _ rfl
  apply modifyGet (fun _ _ _ => trivial)
  intro m m' hm
  exact { hm with output := congrArg (· ++ t ++ "\n") hm.output }

theorem define (f : FrameId) {n n' : Name} (hn : n.Like p.trees n') {v v' : Value} (hv : v.Like p v')
    (constant : Bool) :
    Twins p.machines (fun _ _ => True) (Eval.define f n v constant) (Eval.define f n' v' constant) := by
  unfold Eval.define
  rw [hn.text]
  apply getStore.bind
  intro s s' hs
  rw [hs.frames.defineError? f n.text]
  apply (refuse hn.line _).bind
  intro _ _ _
  apply modifyStore
  intro s s' hs
  exact hs.updateFrames (hs.frames.bind f n.text hv constant)

theorem defineAll (f : FrameId) {ns ns' : List Name} (hn : List.Forall₂ (Name.Like p.trees) ns ns')
    {vs vs' : List Value} (hv : List.Forall₂ (Value.Like p) vs vs') :
    Twins p.machines (fun _ _ => True) (Eval.defineAll f ns vs) (Eval.defineAll f ns' vs') := by
  induction hn generalizing vs vs' with
  | nil =>
    cases hv with
    | nil => exact pure trivial
    | cons => exact pure trivial
  | cons hname _ ih =>
    cases hv with
    | nil => exact pure trivial
    | cons hvalue hv => exact (define f hname hvalue false).bind fun _ _ _ => ih hv

/-! ## Calls -/

theorem checkCount {l l' : Nat} (hl : p.Line l l') (arity : Arity) {vs vs' : List Value}
    (hv : List.Forall₂ (Value.Like p) vs vs') :
    Twins p.machines (fun _ _ => True) (Eval.checkCount l arity vs) (Eval.checkCount l' arity vs') := by
  unfold Eval.checkCount
  rw [hv.length_eq]
  exact ite Iff.rfl (fail hl _) (pure trivial)

theorem checkDepth {l l' : Nat} (hl : p.Line l l') :
    Twins p.machines (fun _ _ => True) (Eval.checkDepth l) (Eval.checkDepth l') := by
  apply get.bind
  intro m m' hm
  rw [hm.context, hm.settings]
  exact ite Iff.rfl (fail hl _) (pure trivial)

theorem bindMethod {f f' : FunctionObject} (hf : f.Like p f') (id : InstanceId) {c c' : ClassObject}
    (hc : c.Like p c') :
    Twins p.machines (FunctionObject.Like p) (Eval.bindMethod f id c) (Eval.bindMethod f' id c') :=
  withStore (fun _ _ hs => (hs.bindMethod hf id hc thisName).1) fun _ _ hs => (hs.bindMethod hf id hc thisName).2

/-! ## Names -/

theorem readName {id id' : NodeId} (hid : p.Node id id') {n n' : Name} (hn : n.Like p.trees n') :
    Twins p.machines (Value.Like p) (Eval.readName id n) (Eval.readName id' n') := by
  unfold Eval.readName
  apply get.bind
  intro m m' hm
  rw [hm.distances hid, hm.context, hn.text]
  cases m.distances[id]? with
  | none => exact liftBinding hn.line (hm.store.frames.get globalFrame n.text)
  | some d => exact liftBinding hn.line (hm.store.frames.getAt m.context.frame d n.text)

/-- The same error, or the same result. -/
theorem liftSame {l l' : Nat} (hl : p.Line l l') (r : Except BindingError α) :
    Twins p.machines Eq (Eval.liftBinding l r) (Eval.liftBinding l' r) := by
  cases r with
  | ok a => exact pure rfl
  | error e => exact fail hl _

theorem assignName {v v' : Variable} (hv : v.Like p.trees v') {w w' : Value} (hw : w.Like p w') :
    Twins p.machines (fun _ _ => True) (Eval.assignName v w) (Eval.assignName v' w') := by
  have target : Twins p.machines Eq (Eval.assignmentFrame v w) (Eval.assignmentFrame v' w') := by
    unfold Eval.assignmentFrame
    apply get.bind
    intro m m' hm
    have frames := hm.store.frames
    dsimp only
    rw [hm.distances hv.node, hm.context, hv.name.text]
    cases m.distances[v.id]? with
    | none =>
      dsimp only
      rw [frames.assignTarget globalFrame v.name.text hw]
      exact liftSame hv.name.line _
    | some d =>
      dsimp only
      rw [frames.assignTargetAt m.context.frame d v.name.text hw]
      exact liftSame hv.name.line _
  apply target.bind
  rintro f _ rfl
  rw [hv.name.text]
  apply modifyStore
  intro s s' hs
  exact hs.updateFrames (hs.frames.store f v.name.text hw)

theorem assignFrom (f : FrameId) {n n' : Name} (hn : n.Like p.trees n') {v v' : Value} (hv : v.Like p v') :
    Twins p.machines (fun _ _ => True) (Eval.assignFrom f n v) (Eval.assignFrom f n' v') := by
  have target : Twins p.machines Eq (Eval.holder f n v) (Eval.holder f n' v') := by
    apply getStore.bind
    intro s s' hs
    rw [hn.text, hs.frames.assignTarget f n.text hv]
    exact liftSame hn.line _
  apply target.bind
  rintro g _ rfl
  rw [hn.text]
  apply modifyStore
  intro s s' hs
  exact hs.updateFrames (hs.frames.store g n.text hv)

/-! ## Classes -/

theorem newFunction (f : FrameId) (isInitializer : Bool) {d d' : FunctionDecl} (hd : d.Like p.trees d') :
    Twins p.machines (FunctionObject.Like p) (Eval.newFunction f isInitializer d)
      (Eval.newFunction f isInitializer d') :=
  freshIdentity.bind fun _ _ hi => pure ⟨hi.symm, hd, rfl, rfl⟩

theorem methodTable (f : FrameId) (canInitialize : Bool) {ds ds' : List FunctionDecl}
    (hd : List.Forall₂ (Routine.Like p.trees) ds ds') {t t' : Table FunctionObject}
    (ht : Table.Paired (FunctionObject.Like p) t t') :
    Twins p.machines (Table.Paired (FunctionObject.Like p)) (Eval.methodTable f canInitialize ds t)
      (Eval.methodTable f canInitialize ds' t') := by
  induction hd generalizing t t' with
  | nil => exact pure ht
  | cons hd _ ih =>
    unfold Eval.methodTable
    rw [hd.name.text]
    apply (newFunction f _ hd).bind
    intro g g' hg
    exact ih (ht.insert _ hg)

theorem newSuperFrame (enclosing : FrameId) {c c' : ClassObject} (hc : c.Like p c') :
    Twins p.machines Eq (Eval.newSuperFrame enclosing c) (Eval.newSuperFrame enclosing c') := by
  apply (newFrame enclosing).bind
  rintro f _ rfl
  have bound : Twins p.machines (fun _ _ => True)
      (Eval.modifyStore (·.updateFrames (·.bind f superName (.classObject c) true)))
      (Eval.modifyStore (·.updateFrames (·.bind f superName (.classObject c') true))) := by
    apply modifyStore
    intro s s' hs
    exact hs.updateFrames (hs.frames.bind f superName (.classObject hc) true)
  exact bound.bind fun _ _ _ => pure rfl

end Twins

end Scriptlet
