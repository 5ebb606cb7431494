import Scriptlet.Proofs.Parsed
import Scriptlet.Scope.Analysis

/-!
# The moves of the analysis

The analysis of a text is a row of moves, the same whatever is known from other texts. A move changes the scopes, or it
comes to a node. There it may record one distance, that of the node. The nodes of the moves are those of the text, in
their order, so the analysis comes to each of them once. It forgets no problem, and behind a statement the scopes are
those before it with the name that the statement declares.
-/
namespace Scriptlet.Analysis

/-- The state after an action. -/
def exec (x : Analysis α) (st : State) : State := (x.run st).2

/-- Changes the innermost of some scopes. -/
def updateHead (f : Scope → Scope) : List Scope → List Scope
  | [] => []
  | scope :: outer => f scope :: outer

theorem exec_bind (node : NodeId) (name : String) (st : State) :
    exec (bind node name) st =
      match distance? name st.scopes with
      | some d => { st with distances := st.distances.insert node d }
      | none => st := rfl

theorem bind_keeps (node : NodeId) (name : String) (st : State) :
    (exec (bind node name) st).scopes = st.scopes ∧ (exec (bind node name) st).problems = st.problems := by
  rw [exec_bind]
  split <;> exact ⟨rfl, rfl⟩

theorem bind_distances {node other : NodeId} (h : other ≠ node) (name : String) (st : State) :
    (exec (bind node name) st).distances[other]? = st.distances[other]? := by
  rw [exec_bind]
  split
  · exact Std.TreeMap.getElem?_insert.trans (if_neg fun same => h (Nat.compare_eq_eq.1 same).symm)
  · rfl

/-- One move. The problems that it reports depend on the scopes at the time. -/
inductive Move where
  | scopes (change : List Scope → List Scope) (problems : List Scope → List (Located ScopeError))
  | node (id : NodeId) (name : String) (recorded : Bool) (problems : List Scope → List (Located ScopeError))

namespace Move

/-- The node that the move comes to. -/
def node? : Move → Option NodeId
  | .scopes .. => none
  | .node id .. => some id

def run : Move → State → State
  | .scopes change problems, st => ⟨change st.scopes, st.distances, st.problems ++ problems st.scopes⟩
  | .node id name recorded problems, st =>
    let reported := { st with problems := st.problems ++ problems st.scopes }
    if recorded then exec (bind id name) reported else reported

/-- The state after a row of moves. -/
def runAll (moves : List Move) (st : State) : State := moves.foldl (fun st move => move.run st) st

theorem runAll_append (first second : List Move) (st : State) :
    runAll (first ++ second) st = runAll second (runAll first st) := List.foldl_append

theorem run_scopes (id : NodeId) (name : String) (recorded : Bool)
    (problems : List Scope → List (Located ScopeError)) (st : State) :
    ((node id name recorded problems).run st).scopes = st.scopes := by
  unfold run
  dsimp only
  split
  · exact (bind_keeps id name _).1
  · rfl

theorem problems_of_run (move : Move) {st : State} (h : (move.run st).problems = []) : st.problems = [] := by
  cases move with
  | scopes change problems => exact (List.append_eq_nil_iff.1 h).1
  | node id name recorded problems =>
    unfold run at h
    dsimp only at h
    split at h
    · rw [(bind_keeps id name _).2] at h
      exact (List.append_eq_nil_iff.1 h).1
    · exact (List.append_eq_nil_iff.1 h).1

theorem distances_run {move : Move} {id : NodeId} (h : move.node? ≠ some id) (st : State) :
    (move.run st).distances[id]? = st.distances[id]? := by
  cases move with
  | scopes change problems => rfl
  | node other name recorded problems =>
    unfold run
    dsimp only
    split
    · exact bind_distances (fun same => h (congrArg some same.symm)) _ _
    · rfl

end Move

/-- The action is a row of moves that come to these nodes. -/
def Walks (ids : List NodeId) (x : Analysis Unit) : Prop :=
  ∃ moves : List Move, moves.filterMap Move.node? = ids ∧ ∀ st, exec x st = Move.runAll moves st

namespace Walks

variable {i j : List NodeId} {x y : Analysis Unit}

theorem seq (hx : Walks i x) (hy : Walks j y) : Walks (i ++ j) (do x; y) := by
  obtain ⟨first, hi, hfirst⟩ := hx
  obtain ⟨second, hj, hsecond⟩ := hy
  refine ⟨first ++ second, ?_, fun st => ?_⟩
  · rw [List.filterMap_append, hi, hj]
  · calc exec (do x; y) st = exec y (exec x st) := rfl
      _ = Move.runAll second (Move.runAll first st) := by rw [hsecond, hfirst]
      _ = Move.runAll (first ++ second) st := (Move.runAll_append first second st).symm

theorem problems (h : Walks i x) (st : State) (hp : (exec x st).problems = []) : st.problems = [] := by
  obtain ⟨moves, -, run⟩ := h
  rw [run] at hp
  clear run
  induction moves generalizing st with
  | nil => exact hp
  | cons move moves ih => exact move.problems_of_run (ih _ hp)

theorem distances (h : Walks i x) (st : State) (id : NodeId) (hid : id ∉ i) :
    (exec x st).distances[id]? = st.distances[id]? := by
  obtain ⟨moves, rfl, run⟩ := h
  rw [run]
  clear run
  rw [List.mem_filterMap, not_exists] at hid
  induction moves generalizing st with
  | nil => rfl
  | cons move moves ih =>
    have first := Move.distances_run (fun here => hid move ⟨List.mem_cons_self .., here⟩) st
    have rest := ih (move.run st) fun other h => hid other ⟨List.mem_cons_of_mem _ h.1, h.2⟩
    exact rest.trans first

end Walks

/-- The action changes the scopes as given, and it is a row of moves that come to these nodes. -/
structure Effect (ids : List NodeId) (change : List Scope → List Scope) (x : Analysis Unit) : Prop where
  scopes (st : State) : (exec x st).scopes = change st.scopes
  walks : Walks ids x

namespace Effect

variable {i j : List NodeId} {f g : List Scope → List Scope} {x y : Analysis Unit}

/-- No problem is forgotten. -/
theorem problems (h : Effect i f x) (st : State) : (exec x st).problems = [] → st.problems = [] := h.walks.problems st

theorem distances (h : Effect i f x) (st : State) (id : NodeId) :
    id ∉ i → (exec x st).distances[id]? = st.distances[id]? :=
  h.walks.distances st id

theorem nothing : Effect [] id (return ()) := ⟨fun _ => rfl, [], rfl, fun _ => rfl⟩

theorem seq (hx : Effect i f x) (hy : Effect j g y) : Effect (i ++ j) (g ∘ f) (do x; y) where
  scopes st := (hy.scopes (exec x st)).trans (congrArg g (hx.scopes st))
  walks := hx.walks.seq hy.walks

/-- After an action that comes to no node. -/
theorem skip (hx : Effect [] f x) (hy : Effect j g y) : Effect j (g ∘ f) (do x; y) := hx.seq hy

/-- Before an action that comes to no node. -/
theorem thenSkip (hx : Effect i f x) (hy : Effect [] g y) : Effect i (g ∘ f) (do x; y) := by
  have h := hx.seq hy
  rwa [List.append_nil] at h

theorem ite {c : Prop} [Decidable c] (hx : Effect i f x) (hy : Effect i f y) :
    Effect i f (if c then x else y) := by
  split
  · exact hx
  · exact hy

theorem congr (hx : Effect i f x) (h : ∀ l, f l = g l) : Effect i g x :=
  ⟨fun st => (hx.scopes st).trans (h _), hx.walks⟩

theorem change (problems : List Scope → List (Located ScopeError))
    (h : ∀ st, exec x st = ⟨f st.scopes, st.distances, st.problems ++ problems st.scopes⟩) : Effect [] f x :=
  ⟨fun st => by rw [h], [.scopes f problems], rfl, h⟩

theorem node (id : NodeId) (name : String) (recorded : Bool) (problems : List Scope → List (Located ScopeError))
    (h : ∀ st, exec x st = (Move.node id name recorded problems).run st) : Effect [id] (fun l => l) x :=
  ⟨fun st => by rw [h, Move.run_scopes], [.node id name recorded problems], rfl, h⟩

end Effect

/-! ## Single moves -/

theorem exec_report (line : Nat) (lexeme : String) (problem : ScopeError) (st : State) :
    exec (report line lexeme problem) st =
      { st with problems := st.problems ++ [⟨line, .atLexeme lexeme, problem⟩] } := rfl

theorem report_effect (line : Nat) (lexeme : String) (problem : ScopeError) :
    Effect [] id (report line lexeme problem) :=
  .change (fun _ => [⟨line, .atLexeme lexeme, problem⟩]) (exec_report line lexeme problem)

theorem openScope_effect (scope : Scope) : Effect [] (scope :: ·) (openScope scope) := by
  refine .change (fun _ => []) fun st => ?_
  rw [List.append_nil]
  rfl

theorem closeScope_effect : Effect [] List.tail closeScope := by
  refine .change (fun _ => []) fun st => ?_
  rw [List.append_nil]
  rfl

theorem exec_updateScope (f : Scope → Scope) (st : State) :
    exec (updateScope f) st = { st with scopes := updateHead f st.scopes } := by
  obtain ⟨scopes, distances, problems⟩ := st
  cases scopes <;> rfl

theorem updateScope_effect (f : Scope → Scope) : Effect [] (updateHead f) (updateScope f) := by
  refine .change (fun _ => []) fun st => ?_
  rw [exec_updateScope, List.append_nil]

/-- What the innermost scope says of a name. -/
def headMark? (name : String) (scopes : List Scope) : Option Bool := scopes.head?.bind (·.find? name)

theorem headMark?_cons (name : String) (scope : Scope) (outer : List Scope) :
    headMark? name (scope :: outer) = scope.find? name := rfl

theorem exec_declare (name : Name) (st : State) :
    exec (declare name) st =
      exec (if (headMark? name.text st.scopes).isSome then
          report name.line name.text (.alreadyDeclared name.text)
        else return ())
        (exec (updateScope (·.insert name.text false)) st) := rfl

theorem declare_effect (name : Name) : Effect [] (updateHead (·.insert name.text false)) (declare name) := by
  refine .change (fun l => if (headMark? name.text l).isSome then
    [⟨name.line, .atLexeme name.text, .alreadyDeclared name.text⟩] else []) fun st => ?_
  rw [exec_declare, exec_updateScope]
  split
  · rfl
  · rw [List.append_nil]
    rfl

theorem define_effect (name : Name) : Effect [] (updateHead (·.insert name.text true)) (define name) :=
  updateScope_effect _

theorem updateHead_insert_insert (name : String) (b : Bool) (scopes : List Scope) :
    updateHead (·.insert name true) (updateHead (·.insert name b) scopes) =
      updateHead (·.insert name true) scopes := by
  cases scopes with
  | nil => rfl
  | cons scope outer => exact congrArg (· :: outer) (scope.insert_insert name b true)

theorem bind_effect (node : NodeId) (name : String) : Effect [node] id (bind node name) := by
  refine .node node name true (fun _ => []) fun st => ?_
  change _ = exec (bind node name) { st with problems := st.problems ++ [] }
  rw [List.append_nil]

/-- A node where a rule is broken has no distance. -/
theorem refuse_effect (node : NodeId) (line : Nat) (lexeme : String) (problem : ScopeError) :
    Effect [node] id (report line lexeme problem) :=
  .node node lexeme false (fun _ => [⟨line, .atLexeme lexeme, problem⟩]) fun _ => rfl

theorem exec_readVariable (use : Variable) (st : State) :
    exec (readVariable use) st =
      exec (bind use.id use.name.text)
        (exec (if headMark? use.name.text st.scopes == some false then
            report use.name.line use.name.text .ownInitializer
          else return ()) st) := by
  have h : exec (readVariable use) st =
      exec (if headMark? use.name.text st.scopes == some false then do
          report use.name.line use.name.text .ownInitializer
          bind use.id use.name.text
        else bind use.id use.name.text) st := rfl
  rw [h]
  split <;> rfl

theorem readVariable_effect (use : Variable) : Effect [use.id] id (readVariable use) := by
  refine .node use.id use.name.text true (fun l => if headMark? use.name.text l == some false then
    [⟨use.name.line, .atLexeme use.name.text, .ownInitializer⟩] else []) fun st => ?_
  rw [exec_readVariable]
  refine congrArg (exec (bind use.id use.name.text)) ?_
  dsimp only
  split
  · rfl
  · rw [List.append_nil]
    rfl

/-! ## Expressions -/

mutual

theorem visitExpr_effect (around : Surroundings) (e : Expr) : Effect e.ids id (visitExpr around e) := by
  match e with
  | .literal _ => exact .nothing
  | .group e => exact visitExpr_effect around e
  | .unary _ _ e => exact visitExpr_effect around e
  | .binary l _ _ r =>
    have h := (visitExpr_effect around l).seq (visitExpr_effect around r)
    rwa [Expr.ids, Expr.uses, Use.ids, List.map_append]
  | .logical l _ _ r =>
    have h := (visitExpr_effect around l).seq (visitExpr_effect around r)
    rwa [Expr.ids, Expr.uses, Use.ids, List.map_append]
  | .variable use => exact readVariable_effect use
  | .assign target e =>
    have h := (visitExpr_effect around e).seq (bind_effect target.id target.name.text)
    rwa [Expr.ids, Expr.uses, Use.ids, List.map_append]
  | .this node line =>
    unfold visitExpr
    split
    · exact refuse_effect node line thisName _
    · exact bind_effect node thisName
  | .super node line _ =>
    unfold visitExpr
    split
    · exact refuse_effect node line superName _
    · exact bind_effect node superName
  | .call f _ args =>
    have h := (visitExpr_effect around f).seq (visitExprs_effect around args)
    rwa [Expr.ids, Expr.uses, Use.ids, List.map_append]
  | .get o _ => exact visitExpr_effect around o
  | .set o _ e =>
    have h := (visitExpr_effect around e).seq (visitExpr_effect around o)
    rwa [Expr.ids, Expr.uses, Use.ids, List.map_append]
  | .array es => exact visitExprs_effect around es

theorem visitExprs_effect (around : Surroundings) (es : List Expr) :
    Effect (Use.ids (Expr.listUses es)) id (visitExprs around es) := by
  match es with
  | [] => exact .nothing
  | e :: es =>
    have h := (visitExpr_effect around e).seq (visitExprs_effect around es)
    rwa [Expr.listUses, Use.ids, List.map_append]

end

theorem visitOptional_effect (around : Surroundings) (e : Option Expr) :
    Effect (Expr.optionIds e) id (visitOptional around e) := by
  cases e with
  | none => exact .nothing
  | some e => exact visitExpr_effect around e

/-! ## Statements -/

/-- How a statement changes the scopes around it. -/
def declares (s : Stmt) : List Scope → List Scope :=
  match s.declared? with
  | none => id
  | some name => updateHead (·.insert name.text true)

theorem declareParams_effect (params : List Name) :
    Effect [] (updateHead fun scope => params.foldl (fun names p => names.insert p.text true) scope)
      (declareParams params) := by
  induction params with
  | nil => exact Effect.nothing.congr fun l => by cases l <;> rfl
  | cons p ps ih =>
    refine ((declare_effect p).skip ((define_effect p).skip ih)).congr fun l => ?_
    cases l with
    | nil => rfl
    | cons scope outer =>
      have h := scope.insert_insert p.text false true
      simp only [Function.comp_apply, updateHead, List.foldl_cons, h]

theorem returnProblems_effect (around : Surroundings) (line : Nat) (value : Option Expr) :
    Effect [] id (returnProblems around line value) := by
  have second : Effect [] id (if value.isSome && around.routine = .initializer then
      report line "return" .returnFromInitializer else return ()) :=
    .ite (report_effect _ _ _) .nothing
  exact .ite ((report_effect _ _ _).skip second) second

/-- The scopes around the methods of a class. -/
def superScopes (superclass : Option Variable) (scopes : List Scope) : List Scope :=
  match superclass with
  | none => scopes
  | some _ => Table.empty.insert superName true :: scopes

theorem enterSuperclass_effect (around : Surroundings) (name : Name) (superclass : Option Variable) :
    Effect (Use.ids (superclass.toList.map Variable.reading)) (superScopes superclass)
      (enterSuperclass around name superclass) := by
  cases superclass with
  | none => exact .nothing
  | some parent =>
    have visited := (visitExpr_effect around (.variable parent)).thenSkip
      (openScope_effect (Table.empty.insert superName true))
    exact .ite ((report_effect _ _ _).skip visited) visited

theorem enterClass_effect (around : Surroundings) (name : Name) (superclass : Option Variable) :
    Effect (Use.ids (superclass.toList.map Variable.reading))
      (fun l => Table.empty.insert thisName true ::
        superScopes superclass (updateHead (·.insert name.text true) l))
      (enterClass around name superclass) := by
  have inner := (enterSuperclass_effect around name superclass).thenSkip
    (openScope_effect (Table.empty.insert thisName true))
  exact ((declare_effect name).skip ((define_effect name).skip inner)).congr fun l =>
    congrArg (fun m => Table.empty.insert thisName true :: superScopes superclass m)
      (updateHead_insert_insert name.text false l)

theorem leaveClass_effect (superclass : Option Variable) :
    Effect [] (fun l => match superclass with | none => l.tail | some _ => l.tail.tail)
      (leaveClass superclass) := by
  cases superclass with
  | none => exact closeScope_effect.skip .nothing
  | some _ => exact closeScope_effect.skip closeScope_effect

theorem declares_of_none {s : Stmt} (h : s.declared? = none) : declares s = id := by
  unfold declares
  rw [h]

theorem tail_declares (s : Stmt) (l : List Scope) : (declares s l).tail = l.tail := by
  unfold declares
  cases s.declared? with
  | none => rfl
  | some name => cases l <;> rfl

/-- How a statement changes the scopes around it, also where a branch declares a name. -/
def changes : Stmt → List Scope → List Scope
  | .ifThen _ t => changes t
  | .ifElse _ t e => changes e ∘ changes t
  | .whileLoop _ body _ | .doWhile body _ => changes body
  | s => declares s

theorem tail_changes (s : Stmt) (l : List Scope) : (changes s l).tail = l.tail := by
  match s with
  | .ifThen _ t => exact tail_changes t l
  | .ifElse _ t e => exact (tail_changes e _).trans (tail_changes t l)
  | .whileLoop _ body _ | .doWhile body _ => exact tail_changes body l
  | .expression _ | .print _ | .letDecl .. | .constDecl .. | .block _ | .function _ | .classDecl .. | .breakLoop _
  | .continueLoop _ | .returnValue .. | .importFile .. => exact tail_declares _ l

/-- No branch of a statement that comes from a text declares a name. -/
theorem changes_of_shaped {s : Stmt} (h : s.Shaped) : changes s = declares s := by
  match s with
  | .ifThen _ t => exact (changes_of_shaped h.2).trans (declares_of_none h.1)
  | .ifElse _ t e =>
    have first := (changes_of_shaped h.1.2).trans (declares_of_none h.1.1)
    have second := (changes_of_shaped h.2.2).trans (declares_of_none h.2.1)
    rw [changes, first, second]
    rfl
  | .whileLoop _ body _ | .doWhile body _ => exact (changes_of_shaped h.2).trans (declares_of_none h.1)
  | .expression _ | .print _ | .letDecl .. | .constDecl .. | .block _ | .function _ | .classDecl .. | .breakLoop _
  | .continueLoop _ | .returnValue .. | .importFile .. => rfl

/-- How statements one after another change the scopes around them. -/
def declareAll (ss : List Stmt) (l : List Scope) : List Scope := ss.foldl (fun l s => declares s l) l

def changeAll (ss : List Stmt) (l : List Scope) : List Scope := ss.foldl (fun l s => changes s l) l

theorem tail_changeAll (ss : List Stmt) (l : List Scope) : (changeAll ss l).tail = l.tail := by
  induction ss generalizing l with
  | nil => rfl
  | cons s ss ih => exact (ih (changes s l)).trans (tail_changes s l)

theorem changeAll_of_shaped {ss : List Stmt} (h : Stmt.ListShaped ss) (l : List Scope) :
    changeAll ss l = declareAll ss l := by
  induction ss generalizing l with
  | nil => rfl
  | cons s ss ih =>
    refine (ih h.2 (changes s l)).trans ?_
    rw [changes_of_shaped h.1]
    rfl

mutual

theorem visitStmt_changes (around : Surroundings) (s : Stmt) : Effect s.ids (changes s) (visitStmt around s) := by
  match s with
  | .expression e | .print e => exact visitExpr_effect around e
  | .letDecl name init =>
    have inner := (visitOptional_effect around init).thenSkip (define_effect name)
    exact ((declare_effect name).skip inner).congr (updateHead_insert_insert name.text false)
  | .constDecl name init =>
    have inner := (visitExpr_effect around init).thenSkip (define_effect name)
    exact ((declare_effect name).skip inner).congr (updateHead_insert_insert name.text false)
  | .block body =>
    have inner := (visitStmts_changes around body).thenSkip closeScope_effect
    exact ((openScope_effect ∅).skip inner).congr fun l => tail_changeAll body (∅ :: l)
  | .ifThen c t => exact (visitExpr_effect around c).seq (visitStmt_changes around t)
  | .ifElse c t e =>
    exact (visitExpr_effect around c).seq ((visitStmt_changes around t).seq (visitStmt_changes around e))
  | .whileLoop c body inc =>
    exact (visitExpr_effect around c).seq ((visitStmt_changes around body).seq (visitOptional_effect around inc))
  | .doWhile body c => exact (visitStmt_changes around body).seq (visitExpr_effect around c)
  | .function d =>
    have inner := visitRoutine_effect { around with routine := .function } d
    exact ((declare_effect d.name).skip ((define_effect d.name).skip inner)).congr
      (updateHead_insert_insert d.name.text false)
  | .classDecl name superclass methods statics =>
    let inside := { around with classKind := classOf superclass }
    have afterStatics := (visitStatics_effect inside statics).thenSkip (leaveClass_effect superclass)
    have afterMethods := (updateScope_effect (·.erase thisName)).skip afterStatics
    have all := (enterClass_effect inside name superclass).seq
      ((visitMethods_effect inside methods).seq afterMethods)
    exact all.congr fun l => by cases superclass <;> rfl
  | .returnValue line value =>
    exact (returnProblems_effect around line value).skip (visitOptional_effect around value)
  | .breakLoop _ | .continueLoop _ | .importFile .. => exact .nothing

theorem visitStmts_changes (around : Surroundings) (ss : List Stmt) :
    Effect (Stmt.listIds ss) (changeAll ss) (visitStmts around ss) := by
  match ss with
  | [] => exact .nothing
  | s :: ss => exact (visitStmt_changes around s).seq (visitStmts_changes around ss)

/-- The scopes around a routine are as before. -/
theorem visitRoutine_effect (around : Surroundings) (d : FunctionDecl) :
    Effect (Stmt.routineIds d) id (visitRoutine around d) := by
  match d with
  | ⟨name, params, body⟩ =>
    have inner := (visitStmts_changes around body).thenSkip closeScope_effect
    exact ((openScope_effect ∅).skip ((declareParams_effect params).skip inner)).congr fun l =>
      tail_changeAll body _

theorem visitMethods_effect (around : Surroundings) (ds : List FunctionDecl) :
    Effect (Stmt.routinesIds ds) id (visitMethods around ds) := by
  match ds with
  | [] => exact .nothing
  | d :: ds => exact (visitRoutine_effect _ d).seq (visitMethods_effect around ds)

theorem visitStatics_effect (around : Surroundings) (ds : List FunctionDecl) :
    Effect (Stmt.routinesIds ds) id (visitStatics around ds) := by
  match ds with
  | [] => exact .nothing
  | d :: ds =>
    have inner := (visitRoutine_effect { around with routine := .staticMethod } d).seq
      (visitStatics_effect around ds)
    exact .ite ((report_effect _ _ _).skip inner) inner

end

theorem visitStmt_effect (around : Surroundings) (s : Stmt) (h : s.Shaped) :
    Effect s.ids (declares s) (visitStmt around s) :=
  changes_of_shaped h ▸ visitStmt_changes around s

theorem visitStmts_effect (around : Surroundings) (ss : List Stmt) (h : Stmt.ListShaped ss) :
    Effect (Stmt.listIds ss) (declareAll ss) (visitStmts around ss) :=
  (visitStmts_changes around ss).congr (changeAll_of_shaped h)

end Scriptlet.Analysis
