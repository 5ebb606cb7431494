import Scriptlet.Proofs.Watching

/-!
# Where a run first fails

A run can keep a trail: the import statements around the statement that is being executed, and its first failure with
all that was known then. The rules for nodes are those of every run; they are tied together with evaluators that note
when a statement is entered, left or broken off. A run with a trail ends like the run without one, and shows the same
visits on the way.
-/
namespace Scriptlet

variable {α β : Type}

/-- What an import statement says. -/
structure Import where
  line : Nat
  path : String
  deriving DecidableEq

def Stmt.import? : Stmt → Option Import
  | .importFile line path => some ⟨line, path⟩
  | _ => none

/-- How a statement was broken off in which no other statement was: the halt, the imports around the statement with the
innermost first, the machine, and what was seen until then. -/
structure Failure where
  halt : Halt
  statement : Stmt
  imports : List Import
  machine : Machine
  seen : List Visit

/-- Notes on where a run stands. -/
structure Trail where
  seen : List Visit
  /-- The imports around the running statement, innermost first. -/
  imports : List Import
  /-- The first failure. -/
  failure : Option Failure

namespace Trail

/-- Nothing has happened yet. -/
def start : Trail := ⟨[], [], none⟩

def observer : Observer Trail := fun visit t => { t with seen := visit :: t.seen }

/-- A statement is entered. -/
def enter (t : Trail) (s : Stmt) : Trail := { t with imports := s.import?.toList ++ t.imports }

/-- A statement is left. -/
def leave (t inside : Trail) : Trail := { inside with imports := t.imports }

/-- A statement is broken off. If no statement inside it was, this is the first failure. -/
def breakOff (t inside : Trail) (s : Stmt) (h : Halt) (m : Machine) : Trail :=
  { t.leave inside with failure := inside.failure <|> some ⟨h, s, t.imports, m, inside.seen⟩ }

/-- Executes a statement and notes how it ends. -/
def within (s : Stmt) (x : Watched Trail α) : Watched Trail α := fun (m, t) =>
  match x (m, t.enter s) with
  | .ok a (m', inside) => .ok a (m', t.leave inside)
  | .error h (m', inside) => .error h (m', t.breakOff inside s h m')

mutual

def evaluate : (fuel : Nat) → Expr → Watched Trail Value
  | 0, _ => throw .outOfFuel
  | n + 1, e => do
    Watched.tell observer (.evaluating e)
    Inner.evaluateExpr ⟨n, observer, evaluate n, execute n⟩ e

def execute : (fuel : Nat) → Stmt → Watched Trail Flow
  | 0, s => within s (throw .outOfFuel)
  | n + 1, s => within s do
    Watched.tell observer (.executing s)
    Inner.executeStmt ⟨n, observer, evaluate n, execute n⟩ s

end

/-- The evaluators for the parts of a node. -/
def inner (fuel : Nat) : Inner Trail := ⟨fuel, observer, evaluate fuel, execute fuel⟩

def executeAll (fuel : Nat) : List Stmt → Watched Trail Unit
  | [] => return ()
  | s :: ss => do
    let _ ← execute fuel s
    executeAll fuel ss

/-- Runs the statements of one text with a trail. -/
def executeText (fuel : Nat) (statements : List Stmt) : Watched Trail Unit := do
  Watched.tell observer (.starting statements)
  executeAll fuel statements

/-- The first failure of a run. -/
def failure? (fuel : Nat) (statements : List Stmt) (m : Machine) : Option Failure :=
  (Watched.notes (executeText fuel statements (m, start))).failure

/-! ## The run without its trail -/

/-- An outcome with the visits only. -/
def shown : EStateM.Result Halt (Machine × Trail) α → EStateM.Result Halt (Machine × List Visit) α
  | .ok a (m, t) => .ok a (m, t.seen)
  | .error h (m, t) => .error h (m, t.seen)

/-- Without its trail, the one evaluation is the other one. -/
def Shows (x : Watched Trail α) (y : Watched (List Visit) α) : Prop := ∀ m t, y (m, t.seen) = shown (x (m, t))

namespace Shows

theorem lift (x : Eval α) : Shows (liftM x) (liftM x) := by
  intro m t
  change Watched.unseen x (m, t.seen) = shown (Watched.unseen x (m, t))
  unfold Watched.unseen
  dsimp only
  cases x m <;> rfl

variable {x : Watched Trail α} {y : Watched (List Visit) α} (hx : Shows x y)
include hx

theorem bind {f : α → Watched Trail β} {g : α → Watched (List Visit) β} (hf : ∀ a, Shows (f a) (g a)) :
    Shows (x >>= f) (y >>= g) := by
  intro m t
  have run := hx m t
  cases h : x (m, t) with
  | ok a w =>
    rw [h] at run
    rw [bind_of_ok h, bind_of_ok run]
    exact hf a w.1 w.2
  | error e w =>
    rw [h] at run
    rw [bind_of_error h, bind_of_error run]
    rfl

theorem tryCatch {f : Halt → Watched Trail α} {g : Halt → Watched (List Visit) α} (hf : ∀ e, Shows (f e) (g e)) :
    Shows (MonadExcept.tryCatch x f : Watched Trail α) (MonadExcept.tryCatch y g : Watched (List Visit) α) := by
  intro m t
  have run := hx m t
  cases h : x (m, t) with
  | ok a w =>
    rw [h] at run
    rw [tryCatch_of_ok h, tryCatch_of_ok run]
    rfl
  | error e w =>
    rw [h] at run
    rw [tryCatch_of_error h, tryCatch_of_error run]
    exact hf e w.1 w.2

theorem inContext (change : Context → Context) :
    Shows (Watched.inContext observer change x) (Watched.inContext .recorder change y) := by
  intro m t
  let entered := m.withContext (change m.context)
  have run : y (entered, ⟨.entering, entered⟩ :: t.seen) = shown (x (entered, observer ⟨.entering, entered⟩ t)) :=
    hx entered (observer ⟨.entering, entered⟩ t)
  unfold Watched.inContext
  dsimp only [Observer.recorder]
  rw [run]
  cases x (entered, observer ⟨.entering, entered⟩ t) <;> rfl

theorem within (s : Stmt) : Shows (within s x) y := by
  intro m t
  have run : y (m, t.seen) = shown (x (m, t.enter s)) := hx m (t.enter s)
  unfold Trail.within
  dsimp only
  rw [run]
  cases x (m, t.enter s) <;> rfl

omit hx in
theorem respects : Respects (fun _ x y => Shows x y) observer .recorder where
  pure _ _ _ := rfl
  throw _ _ _ := rfl
  lift _ := lift _
  bind hx hf := bind hx hf
  tryCatch _ hx hf := tryCatch hx hf
  markImported _ := lift _
  tell _ _ _ := rfl
  inContext _ hx := inContext hx _
  enterCall _ _ _ _ _ ho hx := bind (lift _) fun _ => bind ho fun _ => inContext hx _

end Shows

theorem run_shows (fuel : Nat) :
    (∀ e, Shows (evaluate fuel e) (watchExpr .recorder fuel e)) ∧
      (∀ s, Shows (execute fuel s) (watchStmt .recorder fuel s)) := by
  induction fuel with
  | zero => exact ⟨fun _ => Shows.respects.throw _, fun s => (Shows.respects.throw _).within s⟩
  | succ n ih =>
    have parts : Inner.Related (fun _ x y => Shows x y) (inner n) (innerAt .recorder n) :=
      ⟨Shows.respects, fun h => Shows.respects.loop h n, ih.1, ih.2⟩
    exact ⟨fun e => (Shows.respects.tell _).bind fun _ => parts.evaluateExpr e,
      fun s => ((Shows.respects.tell _).bind fun _ => parts.executeStmt s).within s⟩

theorem executeAll_shows (fuel : Nat) (statements : List Stmt) :
    Shows (executeAll fuel statements) (watchAll .recorder fuel statements) := by
  induction statements with
  | nil => exact fun _ _ => rfl
  | cons s ss ih => exact ((run_shows fuel).2 s).bind fun _ => ih

/-- A run with a trail is the recorded run. -/
theorem executeText_shows (fuel : Nat) (statements : List Stmt) :
    Shows (executeText fuel statements) (watchText .recorder fuel statements) :=
  (Shows.respects.tell _).bind fun _ => executeAll_shows fuel statements

theorem outcome_executeText (fuel : Nat) (statements : List Stmt) (m : Machine) (t : Trail) :
    Watched.outcome (executeText fuel statements (m, t)) = interpret fuel statements m := by
  rw [← outcome_watchText .recorder fuel statements m t.seen, executeText_shows fuel statements m t]
  cases executeText fuel statements (m, t) <;> rfl

theorem seen_executeText (fuel : Nat) (statements : List Stmt) (m : Machine) (t : Trail) :
    (Watched.notes (executeText fuel statements (m, t))).seen =
      Watched.notes (watchText .recorder fuel statements (m, t.seen)) := by
  rw [executeText_shows fuel statements m t]
  cases executeText fuel statements (m, t) <;> rfl

end Trail

end Scriptlet
