import Scriptlet.Proofs.Fuel
import Scriptlet.Proofs.TrackedRules

/-!
# Programs without loops end

A program without loops and imports ends, whatever its functions call. The evaluations for a statement nest at most as
deep as the statement, and each call gets by with the depth of the whole program and with one call less to go. The
connectives that are short for others count for as many levels as these have.
-/
namespace Scriptlet

/-! ## Depth -/

/-- The levels that a connective stands for. -/
def Connective.levels : Connective → Nat
  | .and | .or => 1
  | .xor | .nor | .nand => 4

namespace Expr

mutual

/-- Evaluations for an expression nest at most so deep, apart from calls. -/
def depth : Expr → Nat
  | .literal _ | .variable _ | .this .. | .super .. => 1
  | .group e | .unary _ _ e | .assign _ e | .get e _ => depth e + 1
  | .binary l _ _ r | .set l _ r => max (depth l) (depth r) + 1
  | .logical l op _ r => max (depth l) (depth r) + op.levels
  | .call f _ args => max (depth f) (listDepth args) + 1
  | .array es => listDepth es + 1

def listDepth : List Expr → Nat
  | [] => 0
  | e :: es => max (depth e) (listDepth es)

end

theorem depth_le_listDepth {e : Expr} {es : List Expr} (h : e ∈ es) : e.depth ≤ listDepth es := by
  induction es with
  | nil => cases h
  | cons e' es ih =>
    unfold listDepth
    rcases List.mem_cons.1 h with rfl | h
    · omega
    · have := ih h
      omega

theorem depth_pos (e : Expr) : 0 < e.depth := by
  cases e with
  | logical l op line r => cases op <;> simp [depth, Connective.levels]
  | _ => simp [depth]

/-- What stands for a connective is less deep than the connective counts for. -/
theorem depth_expandConnective {l r : Expr} {op : Connective} (line : Nat) (h : op.levels = 4) :
    (expandConnective l op line r).depth < (Expr.logical l op line r).depth := by
  cases op with
  | and | or => cases h
  | xor | nor | nand =>
    simp only [expandConnective, depth, Connective.levels]
    omega

theorem depth_lt_of_mem_parts {e p : Expr} (h : p ∈ e.parts) : p.depth < e.depth := by
  cases e with
  | literal | «variable» | this | super => cases h
  | group e | unary _ _ e | assign _ e | get e _ =>
    cases List.mem_singleton.1 h
    exact Nat.lt_succ_self _
  | binary l _ _ r | set l _ r =>
    simp only [parts, List.mem_cons, List.not_mem_nil, or_false] at h
    rcases h with rfl | rfl <;> simp only [depth] <;> omega
  | logical l op line r =>
    cases op with
    | and | or =>
      simp only [parts, List.mem_cons, List.not_mem_nil, or_false] at h
      rcases h with rfl | rfl <;> simp only [depth, Connective.levels] <;> omega
    | xor | nor | nand =>
      cases List.mem_singleton.1 h
      exact depth_expandConnective line rfl
  | call f line args =>
    simp only [depth]
    rcases List.mem_cons.1 h with rfl | h
    · omega
    · have := depth_le_listDepth h
      omega
  | array es =>
    have : p.depth ≤ listDepth es := depth_le_listDepth h
    simp only [depth]
    omega

end Expr

namespace Stmt

mutual

/-- Evaluations for a statement, or for a body in it, nest at most so deep, apart from calls. -/
def depth : Stmt → Nat
  | .expression e | .print e | .constDecl _ e => e.depth + 1
  | .letDecl _ init | .returnValue _ init => Expr.listDepth init.toList + 1
  | .block body => listDepth body + 1
  | .ifThen c t => max c.depth (depth t) + 1
  | .ifElse c t e => max c.depth (max (depth t) (depth e)) + 1
  | .whileLoop c body inc => max c.depth (max (depth body) (Expr.listDepth inc.toList)) + 1
  | .doWhile body c => max (depth body) c.depth + 1
  | .function d => routineDepth d + 1
  | .classDecl _ _ methods statics => max (routinesDepth methods) (routinesDepth statics) + 2
  | .breakLoop _ | .continueLoop _ | .importFile .. => 1

def listDepth : List Stmt → Nat
  | [] => 0
  | s :: ss => max (depth s) (listDepth ss)

def routineDepth : FunctionDecl → Nat
  | ⟨_, _, body⟩ => listDepth body

def routinesDepth : List FunctionDecl → Nat
  | [] => 0
  | d :: ds => max (routineDepth d) (routinesDepth ds)

end

mutual

/-- There is no loop and no import in the statement, nor in any body in it. -/
def loopFree : Stmt → Bool
  | .whileLoop .. | .doWhile .. | .importFile .. => false
  | .block body => allLoopFree body
  | .ifThen _ t => loopFree t
  | .ifElse _ t e => loopFree t && loopFree e
  | .function d => routineLoopFree d
  | .classDecl _ _ methods statics => routinesLoopFree methods && routinesLoopFree statics
  | .expression _ | .print _ | .letDecl .. | .constDecl .. | .returnValue .. | .breakLoop _ | .continueLoop _ => true

def allLoopFree : List Stmt → Bool
  | [] => true
  | s :: ss => loopFree s && allLoopFree ss

def routineLoopFree : FunctionDecl → Bool
  | ⟨_, _, body⟩ => allLoopFree body

def routinesLoopFree : List FunctionDecl → Bool
  | [] => true
  | d :: ds => routineLoopFree d && routinesLoopFree ds

end

/-- The statement comes within the depth and has no loops. -/
def Bounded (D : Nat) (s : Stmt) : Prop := s.loopFree = true ∧ s.depth ≤ D

theorem bounded_of_mem {D : Nat} {s : Stmt} {ss : List Stmt} (hl : allLoopFree ss = true) (hd : listDepth ss ≤ D)
    (h : s ∈ ss) : s.Bounded D := by
  induction ss with
  | nil => cases h
  | cons t ss ih =>
    unfold allLoopFree at hl
    unfold listDepth at hd
    rw [Bool.and_eq_true] at hl
    rcases List.mem_cons.1 h with rfl | h
    · exact ⟨hl.1, by omega⟩
    · exact ih hl.2 (by omega) h

theorem bounded_of_mem_body {D : Nat} {s : Stmt} {d : FunctionDecl} {ds : List FunctionDecl}
    (hl : routinesLoopFree ds = true) (hd : routinesDepth ds ≤ D) (h : d ∈ ds) (hs : s ∈ d.body) : s.Bounded D := by
  induction ds with
  | nil => cases h
  | cons d' ds ih =>
    unfold routinesLoopFree at hl
    unfold routinesDepth at hd
    rw [Bool.and_eq_true] at hl
    rcases List.mem_cons.1 h with rfl | h
    · obtain ⟨name, params, body⟩ := d
      unfold routineLoopFree routineDepth at *
      exact bounded_of_mem hl.1 (by omega) hs
    · exact ih hl.2 (by omega) h

theorem depth_pos (s : Stmt) : 0 < s.depth := by
  cases s <;> simp [depth]

theorem depth_lt_of_mem_expressions {s : Stmt} {e : Expr} (h : e ∈ s.expressions) : e.depth < s.depth := by
  cases s with
  | expression e | print e | constDecl _ e =>
    cases List.mem_singleton.1 h
    exact Nat.lt_succ_self _
  | letDecl _ init | returnValue _ init =>
    have : e.depth ≤ Expr.listDepth init.toList := Expr.depth_le_listDepth h
    simp only [depth]
    omega
  | ifThen c t | ifElse c t _ | doWhile _ c =>
    cases List.mem_singleton.1 h
    simp only [depth]
    omega
  | whileLoop c body inc =>
    simp only [depth]
    rcases List.mem_cons.1 h with rfl | h
    · omega
    · have := Expr.depth_le_listDepth h
      omega
  | classDecl name superclass methods statics =>
    obtain ⟨use, -, rfl⟩ := Option.map_eq_some_iff.1 (Option.mem_toList.1 h)
    simp only [depth, Expr.depth]
    omega
  | block | function | breakLoop | continueLoop | importFile => cases h

/-- The parts of a statement without loops are less deep and have no loops. -/
theorem bounded_of_mem_parts {s t : Stmt} {D : Nat} (hl : s.loopFree = true) (hd : s.depth ≤ D + 1)
    (h : t ∈ s.parts) : t.Bounded D := by
  cases s with
  | block body =>
    simp only [loopFree] at hl
    simp only [depth] at hd
    exact bounded_of_mem hl (by omega) h
  | ifThen c t' =>
    cases List.mem_singleton.1 h
    simp only [loopFree] at hl
    simp only [depth] at hd
    exact ⟨hl, by omega⟩
  | ifElse c t' e =>
    simp only [loopFree] at hl
    simp only [depth] at hd
    rw [Bool.and_eq_true] at hl
    rcases List.mem_cons.1 h with rfl | h
    · exact ⟨hl.1, by omega⟩
    · cases List.mem_singleton.1 h
      exact ⟨hl.2, by omega⟩
  | whileLoop | doWhile => cases hl
  | _ => cases h

theorem bounded_of_mem_routines {s t : Stmt} {d : FunctionDecl} {D : Nat} (hl : s.loopFree = true)
    (hd : s.depth ≤ D) (h : d ∈ s.routines) (ht : t ∈ d.body) : t.Bounded D := by
  cases s with
  | function d' =>
    simp only [loopFree] at hl
    simp only [depth] at hd
    have single : routinesLoopFree [d'] = true := by
      unfold routinesLoopFree routinesLoopFree
      rw [hl, Bool.true_and]
    refine bounded_of_mem_body single ?_ h ht
    unfold routinesDepth routinesDepth
    omega
  | classDecl name superclass methods statics =>
    simp only [loopFree] at hl
    simp only [depth] at hd
    rw [Bool.and_eq_true] at hl
    rcases List.mem_append.1 h with h | h
    · exact bounded_of_mem_body hl.1 (by omega) h ht
    · exact bounded_of_mem_body hl.2 (by omega) h ht
  | _ => cases h

end Stmt

theorem Halt.fault_ne_outOfFuel (line : Nat) (f : Fault) : Halt.fault line f ≠ .outOfFuel := nofun

/-- Statements come within the depth and have no loops. There is fuel for their depth, and for that of a body in each
further call. -/
def Regime.bounded (D : Nat) : Regime where
  declaration d := ∀ s ∈ d.body, s.Bounded D
  halt h := h ≠ .outOfFuel
  expr fuel spare e := e.depth + spare * D ≤ fuel
  stmt fuel spare s := s.Bounded D ∧ s.depth + spare * D ≤ fuel
  fault := Halt.fault_ne_outOfFuel
  exprSpent {_ e} h := by
    have := e.depth_pos
    omega
  stmtSpent {_ s} h := by
    have := s.depth_pos
    omega
  exprPart h hp := by
    have := Expr.depth_lt_of_mem_parts hp
    omega
  callBody {fuel spare f line args d s} h hd hs := by
    have positive := (Expr.call f line args).depth_pos
    have within := (hd s hs).2
    -- One call less to go sets free the depth of the whole program, which is enough for the body.
    rw [Nat.succ_mul] at h
    exact ⟨hd s hs, by omega⟩
  stmtExpr h he := by
    have := Stmt.depth_lt_of_mem_expressions he
    omega
  stmtPart {fuel spare s t} h ht := by
    -- The part has a level less than the statement, so it comes within `D` and within the fuel that is left.
    have less := Stmt.bounded_of_mem_parts h.1.1 (D := s.depth - 1) (by omega) ht
    have positive := s.depth_pos
    have within := h.1.2
    have depth := less.2
    exact ⟨⟨less.1, by omega⟩, by omega⟩
  stmtRoutine h hd _ ht := Stmt.bounded_of_mem_routines h.1.1 h.1.2 hd ht
  loop {_ _ s} h hl := by
    cases s with
    | whileLoop | doWhile => cases h.1.1
    | _ => cases hl
  imported _ h := nomatch h.1.1

/-! ## Functions of the program -/

/-- Functions, also those in classes, come from such routines. -/
def Value.ComesFrom (D : FunctionDecl → Prop) : Value → Prop
  | .function f => D f.declaration
  | .classObject c | .object _ c => c.ComesFrom D
  | _ => True

/-- All functions come from such routines. -/
def functionsFrom (D : FunctionDecl → Prop) : Tracking Unit where
  Ghost := Unit
  le _ _ := True
  value _ v := v.ComesFrom D
  method _ f := D f.declaration
  receiver _ _ _ := True
  state _ s _ := s.All (Value.ComesFrom D)
  vacant _ _ _ := True
  refl _ := trivial
  trans _ _ := trivial
  mono _ h := h

theorem plain_comesFrom (D : FunctionDecl → Prop) : Builtin.Plain (Value.ComesFrom D) := by
  constructor <;> intros <;> trivial

theorem functionsFrom_next {D : FunctionDecl → Prop} {s : Store} (h : s.All (Value.ComesFrom D)) :
    (functionsFrom D).Next () s () :=
  ⟨(), trivial, h⟩

theorem functionsFrom_byDeclaration (D : FunctionDecl → Prop) : (functionsFrom D).ByDeclaration D .silent where
  toLawfulData := (plain_comesFrom D).lawfulData (fun _ _ => .rfl) (fun h => h.elements)
    fun _ _ h elements => ⟨h.bindings, elements, h.fields⟩
  function := .rfl
  method := .rfl
  classObject := .rfl
  object := .rfl
  called _ _ := trivial
  binding h hb _ := h.bindings _ _ _ hb
  field h hv := h.fields _ _ _ hv
  tell _ h := h
  told _ _ _ := trivial
  child f h := functionsFrom_next (h.child f)
  bind constant h _ hv := functionsFrom_next (h.bind hv _ _ constant)
  bindMissing h _ _ := functionsFrom_next (h.bind (v := .undefined) trivial _ _ false)
  store h _ hv := functionsFrom_next (h.store hv _ _)
  newInstance h := functionsFrom_next h.newInstance
  setField id name h hv := functionsFrom_next (h.setField hv id name)

theorem functionsFrom_lawful (D : FunctionDecl → Prop) : (functionsFrom D).Lawful D .silent :=
  (functionsFrom_byDeclaration D).lawful

theorem initial_comesFrom (D : FunctionDecl → Prop) : Store.initial.All (Value.ComesFrom D) := by
  have start : (functionsFrom D).state () ⟨#[⟨∅, none⟩], #[], #[], 0⟩ () := .first _
  obtain ⟨_, _, all⟩ := (functionsFrom_lawful D).initial start
  exact all

/-! ## Runs -/

/-- On a new machine, statements without loops do not run out of fuel, if there is some for each call. -/
theorem interpret_bounded {statements : List Stmt} (hl : Stmt.allLoopFree statements = true) {m : Machine}
    (hs : m.store = .initial) {fuel : Nat} (hf : Stmt.listDepth statements * (m.spare + 1) ≤ fuel) :
    Meets (interpret fuel statements) m (fun _ _ => True) fun halt _ => halt ≠ .outOfFuel := by
  let D := Stmt.listDepth statements
  have start : (functionsFrom (Regime.bounded D).declaration).state () m.store () := by
    rw [hs]
    exact initial_comesFrom _
  have enough (s : Stmt) (h : s ∈ statements) : (Regime.bounded D).stmt fuel m.spare s := by
    have bounded := Stmt.bounded_of_mem hl (Nat.le_refl D) h
    rw [Nat.mul_succ, Nat.mul_comm] at hf
    exact ⟨bounded, Nat.le_trans (by rw [Nat.add_comm]; exact Nat.add_le_add_left bounded.2 _) hf⟩
  have run := (functionsFrom_lawful _).watchText (w := (m, ())) start fuel enough
  rw [Meets, interpret, Watched.unwatched_eq]
  unfold Tracking.Keeps Meets at run
  cases ends : watchText .silent fuel statements (m, ()) with
  | ok a w => trivial
  | error halt w =>
    rw [ends] at run
    exact run.1

/-- With enough fuel, statements are run to their end or to a fault that is reported. -/
theorem Session.runStatements_ends {bound : Nat} {statements : List Stmt} {s : Session}
    (enough : Meets (interpret bound statements) s.machine (fun _ _ => True) fun halt _ => halt ≠ .outOfFuel) :
    ∃ last, ∀ fuel, bound ≤ fuel → runStatements fuel statements s = .ok () last := by
  have result : ∃ last, runStatements bound statements s = .ok () last := by
    unfold runStatements
    unfold Meets at enough
    cases outcome : interpret bound statements s.machine with
    | ok a m => exact ⟨_, rfl⟩
    | error halt m =>
      rw [outcome] at enough
      cases halt with
      | fault line f => exact ⟨_, rfl⟩
      | outOfFuel => exact absurd rfl enough
  obtain ⟨last, ends⟩ := result
  refine ⟨last, fun fuel hf => ?_⟩
  rw [← ends]
  unfold runStatements
  rw [interpret_of_le hf statements s.machine enough]

/-- A program without loops and imports that is run on a new machine ends, whatever its functions, methods and
initializers call: with fuel for its depth at each level of calls, and the same way with more fuel. -/
theorem loopFree_ends (settings : Settings) (sink : Sink) (files : FileTree) (clock : Nat) (text : String) :
    let start := Machine.initial settings sink files clock
    let statements := (start.load false text).1.statements
    Stmt.allLoopFree statements = true →
    ∃ last, ∀ fuel, Stmt.listDepth statements * (settings.maxCallDepth + 1) ≤ fuel →
      Session.runText fuel text (.initial start) = .ok () last := by
  intro start statements hl
  obtain ⟨r, s, prepared⟩ := Session.prepareText_ends text (.initial start)
  have run (fuel : Nat) : Session.runText fuel text (.initial start) = Session.runPrepared fuel r s :=
    Session.runText_eq prepared
  cases r with
  | none => exact ⟨s, fun fuel _ => run fuel⟩
  | some ss =>
    have same : ss = statements := by
      rcases Session.prepareText_cases text (.initial start) with ⟨-, result⟩ | ⟨-, -, result⟩ | ⟨-, -, result⟩
      · cases result.symm.trans prepared
      · cases result.symm.trans prepared
      · cases result.symm.trans prepared
        rfl
    subst same
    obtain ⟨store, context, limit⟩ := Session.prepareText_store prepared
    have spare : s.machine.spare = settings.maxCallDepth := by
      unfold Machine.spare
      rw [context, limit]
      rfl
    have enough : Meets (interpret (Stmt.listDepth statements * (settings.maxCallDepth + 1)) statements) s.machine
        (fun _ _ => True) fun halt _ => halt ≠ .outOfFuel :=
      interpret_bounded hl store (Nat.le_of_eq (by rw [spare]))
    obtain ⟨last, ends⟩ := Session.runStatements_ends enough
    exact ⟨last, fun fuel hf => (run fuel).trans (ends fuel hf)⟩

/-- A function that calls itself without end stops at the limit for calls. -/
theorem loopFree_ends_recursion :
    let text := "fun f(n) { print n xor false; return f(n + 1); } f(0);"
    let start := Machine.initial ⟨false, 3⟩ .collected ⟨[], []⟩ 0
    ∃ last, (∀ fuel, Stmt.listDepth (start.load false text).1.statements * 4 ≤ fuel →
        Session.runText fuel text (.initial start) = .ok () last) ∧
      last.machine.output = "false\ntrue\ntrue\n" ∧ last.hadFault = true := by
  intro text start
  have free : Stmt.allLoopFree (start.load false text).1.statements = true := by decide +kernel
  obtain ⟨last, ends⟩ := loopFree_ends ⟨false, 3⟩ .collected ⟨[], []⟩ 0 text free
  have depth : Stmt.listDepth (start.load false text).1.statements * 4 ≤ 40 := by decide +kernel
  have final : Session.final (Session.runText 40 text (.initial start)) = last := by
    rw [ends 40 depth]
    rfl
  refine ⟨last, ends, ?_, ?_⟩
  · rw [← final]
    decide +kernel
  · rw [← final]
    decide +kernel

end Scriptlet
