import Scriptlet.Run.Machine

/-!
# Watching a run

Whoever runs a program may watch it. The expressions and statements that a run turns to, the frames that it
opens and the changes of its context are shown to an observer, each with the machine at that moment. An
observer keeps notes beside the machine and has no part in the run.
-/
namespace Scriptlet

/-- A part of a text with a scope of its own, for which a run opens frames. -/
inductive Region where
  | block (body : List Stmt)
  /-- The parameters and the body of a routine. -/
  | routine (declaration : FunctionDecl)
  /-- The surroundings of a method, where `this` is bound. -/
  | receiver (method : FunctionDecl)
  /-- The surroundings of the methods of a subclass, where `super` is bound. -/
  | superclass (declaration : Stmt)
  /-- The surroundings of the static methods of a class, where nothing is bound. -/
  | statics (declaration : Stmt)

/-- What a run shows of itself. -/
inductive Event where
  /-- The statements of a text are about to be executed. -/
  | starting (statements : List Stmt)
  | evaluating (e : Expr)
  | executing (s : Stmt)
  /-- The value of an assignment is known and about to be stored. -/
  | assigning (target : Variable) (value : Value)
  | opening (region : Region) (frame : FrameId)
  /-- The context was changed. -/
  | entering

/-- An event with the machine at that moment. -/
structure Visit where
  event : Event
  machine : Machine

/-- Someone who watches a run and keeps notes. -/
abbrev Observer (ν : Type) := Visit → ν → ν

namespace Observer

/-- Looks away. -/
def silent : Observer Unit := fun _ notes => notes

/-- Writes everything down, the latest first. -/
def recorder : Observer (List Visit) := fun visit earlier => visit :: earlier

end Observer

/-- An evaluation with the notes of an observer beside the machine. -/
abbrev Watched (ν : Type) := EStateM Halt (Machine × ν)

namespace Watched

/-- An evaluation in which there is nothing to see. -/
def unseen (x : Eval α) : Watched ν α := fun (m, notes) =>
  match x m with
  | .ok a m => .ok a (m, notes)
  | .error h m => .error h (m, notes)

instance : MonadLift Eval (Watched ν) := ⟨unseen⟩

/-- The evaluation without its observer. -/
def unwatched (x : Watched Unit α) : Eval α := fun m =>
  match x (m, ()) with
  | .ok a (m, _) => .ok a m
  | .error h (m, _) => .error h m

def tell (observer : Observer ν) (event : Event) : Watched ν Unit := fun (m, notes) =>
  .ok () (m, observer ⟨event, m⟩ notes)

/-- Runs `action` in a changed context and puts the context back, however it ends. -/
def inContext (observer : Observer ν) (change : Context → Context) (action : Watched ν α) : Watched ν α :=
  fun (m, notes) =>
    let entered := m.withContext (change m.context)
    match action (entered, observer ⟨.entering, entered⟩ notes) with
    | .ok a (m', notes) => .ok a (m'.withContext m.context, notes)
    | .error h (m', notes) => .error h (m'.withContext m.context, notes)

end Watched

end Scriptlet
