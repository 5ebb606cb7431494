import Scriptlet.Proofs.Frames
import Scriptlet.Proofs.Storages
import Scriptlet.Run.Evaluate
import Mathlib.Logic.Relation

/-!
# Single steps of a run

Between the evaluations of the parts of a node, the rules read the machine and change it in a few ways, which
are listed here once. What each of these changes keeps, a run keeps.
-/
namespace Scriptlet

variable {α β : Type}

/-- The machine at the end. -/
def finalMachine : EStateM.Result Halt Machine α → Machine
  | .ok _ m => m
  | .error _ m => m

/-- What holds of the machine whichever way the evaluation ends. -/
theorem meets_iff_finalMachine {x : Eval α} {m : Machine} {P : Machine → Prop} :
    Meets x m (fun _ m' => P m') (fun _ m' => P m') ↔ P (finalMachine (x m)) := by
  unfold Meets
  cases x m with
  | ok a m' => exact Iff.rfl
  | error e m' => exact Iff.rfl

/-! ## Reports -/

/-- The machines differ only in what was reported. -/
def Machine.SameButReports (m m' : Machine) : Prop :=
  m' = { m with
    reporter := { m.reporter with diagnostics := m'.reporter.diagnostics, console := m'.reporter.console }
    files := m'.files }

namespace Machine

theorem SameButReports.trans {m m' m'' : Machine} (h : m.SameButReports m') (h' : m'.SameButReports m'') :
    m.SameButReports m'' := by
  unfold SameButReports at *
  rw [h', h]

theorem SameButReports.context {m m' : Machine} (h : m.SameButReports m') : m'.context = m.context := by
  rw [h]

theorem SameButReports.store {m m' : Machine} (h : m.SameButReports m') : m'.store = m.store := by
  rw [h]

theorem SameButReports.settings {m m' : Machine} (h : m.SameButReports m') : m'.settings = m.settings := by
  rw [h]

theorem SameButReports.output {m m' : Machine} (h : m.SameButReports m') : m'.output = m.output := by
  rw [h]

theorem SameButReports.imported {m m' : Machine} (h : m.SameButReports m') : m'.imported = m.imported := by
  rw [h]

theorem SameButReports.clock {m m' : Machine} (h : m.SameButReports m') : m'.clock = m.clock := by
  rw [h]

theorem SameButReports.sink {m m' : Machine} (h : m.SameButReports m') :
    m'.reporter.sink = m.reporter.sink := by
  rw [h]

theorem report_same (m : Machine) (d : Diagnostic) : m.SameButReports (m.report d) := by
  unfold report
  split
  · exact rfl
  · exact rfl
  · dsimp only
    split <;> exact rfl

theorem reportAll_append (m : Machine) (ds ds' : List Diagnostic) :
    m.reportAll (ds ++ ds') = (m.reportAll ds).reportAll ds' :=
  List.foldl_append

theorem reportAll_same (m : Machine) (ds : List Diagnostic) : m.SameButReports (m.reportAll ds) := by
  induction ds generalizing m with
  | nil => exact rfl
  | cons d ds ih => exact (m.report_same d).trans (ih (m.report d))

theorem report_collected {m : Machine} (h : m.reporter.sink = .collected) (d : Diagnostic) :
    (m.report d).reporter = { m.reporter with diagnostics := m.reporter.diagnostics ++ [d] } := by
  unfold report
  rw [h]

/-- Where diagnostics are collected, the new ones come behind the old ones. -/
theorem reportAll_collected {m : Machine} (h : m.reporter.sink = .collected) (ds : List Diagnostic) :
    (m.reportAll ds).reporter.diagnostics = m.reporter.diagnostics ++ ds := by
  induction ds generalizing m with
  | nil => exact (List.append_nil _).symm
  | cons d ds ih =>
    have reported := report_collected h d
    refine (ih (by rw [reported]; exact h)).trans ?_
    rw [reported, List.append_assoc]
    rfl

/-- A report depends on where reports go and on what is there. -/
theorem report_congr {m m' : Machine} (hr : m'.reporter = m.reporter) (hf : m'.files = m.files) (d : Diagnostic) :
    (m'.report d).reporter = (m.report d).reporter ∧ (m'.report d).files = (m.report d).files := by
  unfold report writeConsole
  rw [hr, hf]
  split
  · exact ⟨rfl, rfl⟩
  · exact ⟨rfl, rfl⟩
  · dsimp only
    split <;> exact ⟨rfl, rfl⟩

/-- Both kinds of problems of a text are reported. -/
theorem load_same (m : Machine) (inComment : Bool) (text : String) :
    ∃ reported, m.SameButReports reported ∧
      (m.load inComment text).2 = { reported with nextNode := (m.load inComment text).2.nextNode } :=
  ⟨_, (m.reportAll_same _).trans (reportAll_same _ _), rfl⟩

theorem analyse_same (m : Machine) (statements : List Stmt) :
    SameButReports { m with distances := (Analysis.ofStatements m.distances statements).distances }
      (m.analyse statements).2 :=
  reportAll_same _ _

/-! ## Texts -/

/-- The machines differ only in what was reported and in what is known of texts. -/
def SameButTexts (m m' : Machine) : Prop :=
  m' = { m with
    reporter := { m.reporter with diagnostics := m'.reporter.diagnostics, console := m'.reporter.console }
    files := m'.files
    nextNode := m'.nextNode
    distances := m'.distances }

/-- A text is taken up: it is parsed, and then perhaps those of its statements that meet `p` are analysed. -/
inductive Loads (m : Machine) : Machine → Prop where
  | parsed (inComment : Bool) (text : String) : Loads m (m.load inComment text).2
  | analysed (inComment : Bool) (text : String) (p : Stmt → Bool) :
    Loads m ((m.load inComment text).2.analyse ((m.load inComment text).1.statements.filter p)).2

theorem Loads.analysedAll (m : Machine) (inComment : Bool) (text : String) :
    m.Loads ((m.load inComment text).2.analyse (m.load inComment text).1.statements).2 := by
  have h := Loads.analysed (m := m) inComment text fun _ => true
  rwa [List.filter_eq_self.2 fun _ _ => rfl] at h

theorem Loads.same {m m' : Machine} (h : m.Loads m') : m.SameButTexts m' := by
  have loaded (inComment : Bool) (text : String) : m.SameButTexts (m.load inComment text).2 := by
    obtain ⟨reported, same, loaded⟩ := m.load_same inComment text
    unfold SameButTexts
    rw [loaded, same]
  cases h with
  | parsed inComment text => exact loaded inComment text
  | analysed inComment text p =>
    have same := analyse_same (m.load inComment text).2 ((m.load inComment text).1.statements.filter p)
    unfold SameButTexts
    rw [same, loaded inComment text]

/-! ## Changes of the machine -/

/-- A single change that a run makes to its machine, other than changing the context or marking a file as imported.
A name is bound only where it is not bound yet, and gets another value only where it takes it. Only native functions
change the elements of collections. -/
inductive Step (m : Machine) : Machine → Prop where
  | data {m' : Machine} : m.SameButData m' → m.store.Spares (fun _ => False) m'.store → Step m m'
  | native (line : Nat) (f : Native) (args : List Value) :
    m.SameButData (finalMachine (Builtin.callNative line f args m)) →
    Step m (finalMachine (Builtin.callNative line f args m))
  | frame (enclosing : FrameId) : Step m { m with store := (m.store.newFrame enclosing).2 }
  | binding (f : FrameId) (name : String) (value : Value) (constant : Bool) :
    m.store.frames.bindingAt? f name = none →
    Step m { m with store := m.store.updateFrames (·.bind f name value constant) }
  | assignment (f : FrameId) (name : String) (value : Value) :
    m.store.frames.storeError? f name value = none →
    Step m { m with store := m.store.updateFrames (·.store f name value) }
  | «instance» : Step m { m with store := m.store.newInstance.2 }
  | field (id : InstanceId) (name : String) (value : Value) :
    Step m { m with store := m.store.setField id name value }
  | output (text : String) : Step m { m with output := text }
  | reported {m' : Machine} : m.SameButReports m' → Step m m'
  | loaded {m' : Machine} : m.Loads m' → Step m m'

/-- The machine comes from the other one by single changes. -/
abbrev Steps : Machine → Machine → Prop := Relation.ReflTransGen Step

/-- The machine comes from the other one by single changes, and nothing was reported. -/
structure QuietSteps (m m' : Machine) : Prop where
  steps : m.Steps m'
  reporter : m'.reporter = m.reporter

namespace QuietSteps

variable {m m' m'' : Machine}

theorem refl : m.QuietSteps m := ⟨.refl, rfl⟩

theorem single (h : m.Step m') (hr : m'.reporter = m.reporter) : m.QuietSteps m' := ⟨.single h, hr⟩

theorem data (h : m.SameButData m') (hs : m.store.Spares (fun _ => False) m'.store) : m.QuietSteps m' :=
  .single (.data h hs) (by rw [h])

theorem trans (h : m.QuietSteps m') (h' : m'.QuietSteps m'') : m.QuietSteps m'' :=
  ⟨h.steps.trans h'.steps, h'.reporter.trans h.reporter⟩

end QuietSteps

end Machine

/-- The evaluation makes its changes one by one. -/
def Eval.Stepwise (x : Eval α) : Prop := ∀ m, Meets x m (fun _ m' => m.Steps m') (fun _ m' => m.Steps m')

/-- The evaluation makes its changes one by one and reports nothing. -/
def Eval.Quiet (x : Eval α) : Prop :=
  ∀ m, Meets x m (fun _ m' => m.QuietSteps m') (fun _ m' => m.QuietSteps m')

namespace Eval.Quiet

theorem stepwise {x : Eval α} (h : Quiet x) : Stepwise x :=
  fun m => (h m).mono (fun _ _ h' => h'.steps) fun _ _ h' => h'.steps

theorem bind {x : Eval α} {f : α → Eval β} (hx : Quiet x) (hf : ∀ a, Quiet (f a)) :
    Quiet (x >>= f) := by
  intro m
  refine Meets.bind (hx m) ?_
  intro a m' h
  exact Meets.mono (hf a m') (fun _ _ h' => h.trans h') (fun _ _ h' => h.trans h')

theorem spares {x : Eval Value} (h : Builtin.Spares (fun _ => False) x) : Quiet x := by
  intro m
  refine Meets.mono (h m) ?_ ?_
  · rintro a m' ⟨hs, hc⟩
    exact .data hs hc
  · rintro e m' ⟨hs, hc⟩
    exact .data hs hc

theorem pure (a : α) : Quiet (Pure.pure a) := fun _ => .refl

theorem fail (line : Nat) (f : Fault) : Quiet (Eval.fail line f : Eval α) := fun _ => .refl

theorem ite {c : Prop} [Decidable c] {x y : Eval α} (hx : Quiet x) (hy : Quiet y) :
    Quiet (if c then x else y) := by
  split
  · exact hx
  · exact hy

/-! ## Reading -/

theorem getMachine : Quiet Eval.getMachine := fun _ => .refl

theorem getStore : Quiet Eval.getStore := fun _ => .refl

theorem getContext : Quiet Eval.getContext := fun _ => .refl

theorem currentFrame : Quiet Eval.currentFrame := fun _ => .refl

theorem liftBinding (line : Nat) (r : Except BindingError α) : Quiet (Eval.liftBinding line r) := by
  cases r with
  | ok a => exact pure a
  | error e => exact fail line _

theorem readName (id : NodeId) (name : Name) : Quiet (Eval.readName id name) := by
  refine bind getMachine fun m => ?_
  split
  · exact liftBinding _ _
  · exact liftBinding _ _

theorem readSuperclass (id : NodeId) (line : Nat) : Quiet (Eval.readSuperclass id line) := by
  refine bind getMachine fun m => ?_
  split
  · exact fail _ _
  · refine bind (liftBinding _ _) fun v => ?_
    split
    · refine bind (liftBinding _ _) fun w => ?_
      split
      · exact pure _
      · exact fail _ _
    · exact fail _ _

theorem assignedInstance (object : Value) (name : Name) : Quiet (Eval.assignedInstance object name) := by
  unfold Eval.assignedInstance
  split
  · exact pure _
  · exact fail _ _
  · exact fail _ _

theorem checkCount (line : Nat) (arity : Arity) (args : List Value) :
    Quiet (Eval.checkCount line arity args) :=
  ite (fail _ _) (pure ())

theorem checkDepth (line : Nat) : Quiet (Eval.checkDepth line) :=
  bind getMachine fun _ => ite (fail _ _) (pure ())

/-! ## Native functions and operators -/

theorem newCollection (kind : CollectionKind) (elements : Array Value) :
    Quiet (Eval.newCollection kind elements) :=
  fun m => .data rfl (m.store.spares_allocate elements)

theorem callNative (line : Nat) (f : Native) (args : List Value) :
    Quiet (Builtin.callNative line f args) := by
  intro m
  have same := (meets_iff_finalMachine.1 (Builtin.callNative_spares line f args m)).1
  exact meets_iff_finalMachine.2 (.single (.native line f args same) (by rw [same]))

theorem binaryOp (op : BinaryOp) (line : Nat) (left right : Value) : Quiet (op.apply line left right) :=
  spares (Builtin.binaryOp_spares op line left right)

theorem unaryOp (op : UnaryOp) (line : Nat) (operand : Value) : Quiet (op.apply line operand) :=
  spares (Builtin.unaryOp_spares op line operand)

theorem property? {receiver : Value} {name : Name} {read : Eval Value}
    (h : Builtin.property? receiver name = some read) : Quiet read :=
  spares (Builtin.property?_spares h)

/-! ## Frames, functions and instances -/

theorem freshIdentity : Quiet Eval.freshIdentity :=
  fun _ => .data rfl (Store.spares_of_collections rfl)

theorem newFrame (enclosing : FrameId) : Quiet (Eval.newFrame enclosing) :=
  fun _ => .single (.frame enclosing) rfl

theorem newInstance : Quiet (Eval.withStore Store.newInstance) := fun _ => .single .instance rfl

theorem setField (id : InstanceId) (name : String) (value : Value) :
    Quiet (Eval.modifyStore (·.setField id name value)) :=
  fun _ => .single (.field id name value) rfl

/-- A frame is opened, and binds a first name. -/
theorem quietSteps_newFrame_bind (m : Machine) (enclosing : FrameId) (name : String) (value : Value)
    (constant : Bool) :
    m.QuietSteps { m with
      store := (m.store.newFrame enclosing).2.updateFrames
        (·.bind m.store.frames.size name value constant) } := by
  have opened := Machine.Step.frame (m := m) enclosing
  have bound := Machine.Step.binding (m := { m with store := (m.store.newFrame enclosing).2 })
    m.store.frames.size name value constant ?_
  · exact ⟨(Relation.ReflTransGen.single opened).tail bound, rfl⟩
  · change (m.store.frames.child enclosing).bindingAt? _ _ = none
    rw [Frames.bindingAt?_child, Frames.bindingAt?, Array.getElem?_size]
    rfl

theorem newSuperFrame (enclosing : FrameId) (parent : ClassObject) :
    Quiet (Eval.newSuperFrame enclosing parent) :=
  fun m => quietSteps_newFrame_bind m enclosing superName (.classObject parent) true

theorem bindMethod (method : FunctionObject) (id : InstanceId) (cls : ClassObject) :
    Quiet (Eval.bindMethod method id cls) :=
  fun m => (quietSteps_newFrame_bind m method.frame thisName (.object id cls) true).trans
    (.data rfl (Store.spares_of_collections rfl))

theorem define (frame : FrameId) (name : Name) (value : Value) (constant : Bool) :
    Quiet (Eval.define frame name value constant) := by
  intro m
  unfold Eval.define
  refine Meets.bind (Q := fun s m' => s = m.store ∧ m' = m) ⟨rfl, rfl⟩ ?_
  rintro s m' ⟨rfl, rfl⟩
  rw [Frames.defineError?]
  cases hb : m'.store.frames.bindingAt? frame name.text with
  | none => exact .single (.binding frame name.text value constant hb) rfl
  | some b => exact .refl

theorem defineAll (frame : FrameId) (params : List Name) (args : List Value) :
    Quiet (Eval.defineAll frame params args) := by
  induction params generalizing args with
  | nil => exact pure ()
  | cons p ps ih =>
    cases args with
    | nil => exact pure ()
    | cons v vs => exact bind (define frame p v false) fun _ => ih vs

theorem newFunction (frame : FrameId) (isInitializer : Bool) (d : FunctionDecl) :
    Quiet (Eval.newFunction frame isInitializer d) :=
  bind freshIdentity fun _ => pure _

theorem methodTable (frame : FrameId) (canInitialize : Bool) (ds : List FunctionDecl)
    (table : Table FunctionObject) : Quiet (Eval.methodTable frame canInitialize ds table) := by
  induction ds generalizing table with
  | nil => exact pure table
  | cons d ds ih => exact bind (newFunction frame _ d) fun _ => ih _

/-! ## Assignments -/

/-- The evaluation only reads, and finds a frame that takes the value for the name. -/
def Finds (frame : Eval FrameId) (name : String) (value : Value) : Prop :=
  ∀ m, Meets frame m (fun f m' => m' = m ∧ m.store.frames.storeError? f name value = none)
    (fun _ m' => m' = m)

theorem finds_liftBinding {m : Machine} {line : Nat} {target : Except BindingError FrameId} {name : String}
    {value : Value} (h : ∀ f, target = .ok f → m.store.frames.storeError? f name value = none) :
    Meets (Eval.liftBinding line target) m
      (fun f m' => m' = m ∧ m.store.frames.storeError? f name value = none) (fun _ m' => m' = m) := by
  cases target with
  | error e => exact rfl
  | ok f => exact ⟨rfl, h f rfl⟩

theorem store {frame : Eval FrameId} {name : String} {value : Value} (hf : Finds frame name value) :
    Quiet (do
      let target ← frame
      Eval.modifyStore (·.updateFrames (·.store target name value))) := by
  intro m
  refine Meets.bind (Meets.mono (hf m) (fun _ _ h => h) ?_) ?_
  · rintro _ _ rfl
    exact .refl
  · rintro f _ ⟨rfl, h⟩
    exact .single (.assignment f name value h) rfl

theorem assignFrom (frame : FrameId) (name : Name) (value : Value) :
    Quiet (Eval.assignFrom frame name value) := by
  refine store fun m => ?_
  exact finds_liftBinding fun _ => Frames.storeError?_of_assignTarget

theorem assignName (target : Variable) (value : Value) : Quiet (Eval.assignName target value) := by
  refine store fun m => ?_
  unfold Eval.assignmentFrame
  refine Meets.bind (Q := fun a m' => a = m ∧ m' = m) ⟨rfl, rfl⟩ ?_
  rintro _ _ ⟨rfl, rfl⟩
  dsimp only
  split
  · exact finds_liftBinding fun _ => Frames.storeError?_of_assignTargetAt
  · exact finds_liftBinding fun _ => Frames.storeError?_of_assignTarget

/-! ## Output -/

theorem writeLine (v : Value) : Quiet (Eval.writeLine v) := fun _ => .single (.output _) rfl

end Eval.Quiet

namespace Eval.Stepwise

theorem report (d : Diagnostic) : Stepwise (Eval.report d) := fun m => .single (.reported (m.report_same d))

theorem readDeclarations (line : Nat) (path text : String) :
    Stepwise (Eval.readDeclarations line path text) := by
  intro m
  have parsed : m.Steps (m.load false text).2 := .single (.loaded (.parsed false text))
  have analysed : m.Steps ((m.load false text).2.analyse
      ((m.load false text).1.statements.filter Stmt.isDeclaration)).2 := .single (.loaded (.analysed ..))
  refine Meets.bind (Q := fun p m' => p = (m.load false text).1 ∧ m' = (m.load false text).2) ⟨rfl, rfl⟩ ?_
  rintro _ _ ⟨rfl, rfl⟩
  refine Eval.meets_guard (fun _ => parsed) fun _ => Meets.bind (Q := fun _ m' => m.Steps m') analysed ?_
  exact fun _ _ steps => Eval.meets_guard (fun _ => steps) fun _ => steps

end Eval.Stepwise

/-! ## Readings -/

namespace Frames

variable {fs : Frames} {f : FrameId} {name : String} {value : Value} {e : BindingError}

theorem ordinary_of_readAt (h : fs.readAt f name = .error e) : (Fault.binding e).isRedeclared = false := by
  unfold readAt at h
  split at h
  · cases h
    rfl
  · split at h
    · cases h
      rfl
    · cases h

theorem ordinary_of_storeError? (h : fs.storeError? f name value = some e) :
    (Fault.binding e).isRedeclared = false := by
  unfold storeError? at h
  split at h
  · cases h
    rfl
  · split at h
    · cases h
      rfl
    · split at h
      · split at h
        · cases h
        · cases h
          rfl
      · cases h

theorem ordinary_of_get (h : fs.get f name = .error e) : (Fault.binding e).isRedeclared = false := by
  unfold get at h
  split at h
  · cases h
    rfl
  · exact ordinary_of_readAt h

theorem ordinary_of_ancestor {d : Nat} (h : fs.ancestor f d name = .error e) :
    (Fault.binding e).isRedeclared = false := by
  unfold ancestor at h
  split at h
  · cases h
    rfl
  · cases h

theorem ordinary_of_getAt {d : Nat} (h : fs.getAt f d name = .error e) :
    (Fault.binding e).isRedeclared = false := by
  unfold getAt at h
  split at h
  · next found =>
    cases h
    exact ordinary_of_ancestor found
  · exact ordinary_of_readAt h

theorem ordinary_of_assignTarget (h : fs.assignTarget f name value = .error e) :
    (Fault.binding e).isRedeclared = false := by
  unfold assignTarget at h
  split at h
  · cases h
    rfl
  · split at h
    · next found =>
      cases h
      exact ordinary_of_storeError? found
    · cases h

theorem ordinary_of_assignTargetAt {d : Nat} (h : fs.assignTargetAt f d name value = .error e) :
    (Fault.binding e).isRedeclared = false := by
  unfold assignTargetAt at h
  split at h
  · next found =>
    cases h
    exact ordinary_of_ancestor found
  · split at h
    · next found =>
      cases h
      exact ordinary_of_storeError? found
    · cases h

end Frames

namespace Eval.Reads

variable {m : Machine} {Q : α → Prop}

theorem getContext : Reads m Eval.getContext (· = m.context) := ⟨rfl, rfl⟩

theorem currentFrame : Reads m Eval.currentFrame (· = m.context.frame) := ⟨rfl, rfl⟩

theorem liftBinding (line : Nat) {r : Except BindingError α}
    (hr : ∀ e, r = .error e → (Fault.binding e).isRedeclared = false) (h : ∀ a, r = .ok a → Q a) :
    Reads m (Eval.liftBinding line r) Q := by
  cases r with
  | ok a => exact ⟨rfl, h a rfl⟩
  | error e => exact fail line (hr e rfl)

theorem getAt (line : Nat) {f : FrameId} {d : Nat} {name : String} {P : Value → Prop}
    (h : ∀ v, m.store.frames.getAt f d name = .ok v → P v) :
    Reads m (Eval.liftBinding line (m.store.frames.getAt f d name)) P :=
  liftBinding line (fun _ => Frames.ordinary_of_getAt) h

/-- A name is read at its distance, or else in the global frame. -/
theorem readName {P : Value → Prop} (id : NodeId) (name : Name)
    (distant : ∀ d v, m.store.frames.getAt m.context.frame d name.text = .ok v → P v)
    (global : ∀ v, m.store.frames.get globalFrame name.text = .ok v → P v) :
    Reads m (Eval.readName id name) P := by
  refine bind getMachine ?_
  rintro _ rfl
  split
  · exact getAt _ (distant _)
  · exact liftBinding _ (fun _ => Frames.ordinary_of_get) global

/-- The superclass and the receiver are both read at a distance. -/
theorem readSuperclass {P : Value → Prop} (id : NodeId) (line : Nat)
    (distant : ∀ d name v, m.store.frames.getAt m.context.frame d name = .ok v → P v) :
    Reads m (Eval.readSuperclass id line) fun r => P (.classObject r.1) ∧ P (.object r.2.1 r.2.2) := by
  refine bind getMachine ?_
  rintro _ rfl
  split
  · exact fail _ rfl
  · refine bind (getAt _ (distant _ _)) fun v hv => ?_
    cases v with
    | classObject parent =>
      refine bind (getAt _ (distant _ _)) fun v' hv' => ?_
      cases v' with
      | object instanceId c => exact pure ⟨hv, hv'⟩
      | _ => exact fail _ rfl
    | _ => exact fail _ rfl

theorem assignedInstance (object : Value) (name : Name) :
    Reads m (Eval.assignedInstance object name) fun _ => True := by
  cases object with
  | object id c => exact .pure trivial
  | _ => exact .fail _ rfl

theorem checkCount (line : Nat) (arity : Arity) (args : List Value) :
    Reads m (Eval.checkCount line arity args) fun _ => arity.accepts args.length = true := by
  unfold Eval.checkCount
  split
  · exact fail line rfl
  · next h => exact ⟨rfl, by simpa using h⟩

theorem checkDepth (line : Nat) :
    Reads m (Eval.checkDepth line) fun _ => m.context.callDepth < m.settings.maxCallDepth := by
  have check : Eval.checkDepth line m =
      (if m.context.callDepth ≥ m.settings.maxCallDepth then Eval.fail line .stackOverflow
        else Pure.pure () : Eval Unit) m := rfl
  by_cases hc : m.context.callDepth ≥ m.settings.maxCallDepth
  · rw [if_pos hc] at check
    rw [Reads, Meets, check]
    exact ⟨rfl, rfl⟩
  · rw [if_neg hc] at check
    rw [Reads, Meets, check]
    exact ⟨rfl, Nat.lt_of_not_le hc⟩

end Eval.Reads

end Scriptlet
