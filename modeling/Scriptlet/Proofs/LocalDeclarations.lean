import Scriptlet.Proofs.NamesInScope

/-!
# Local declarations do not collide

A statement that declares a name in a frame other than the global one finds the name unbound there: each activation
of a region executes each of its declarations once, and nothing else binds names in a local frame. The parameters of a
call are bound first, in a frame that is still empty. So a name that is declared twice stops a run in the global frame
only. Expressions never stop for that reason, although the functions that they call run declarations.
-/
namespace Scriptlet

open World

/-! ## Moments of a run -/

theorem AllInScope.older {newer older : List Visit} (h : AllInScope (newer ++ older)) : AllInScope older := by
  induction newer with
  | nil => exact h
  | cons _ _ ih => exact ih h.2

namespace World.Inv

variable {m : Machine} {newer older : List Visit} {v : Visit} (h : World.Inv (m, newer ++ v :: older))
include h

/-- The invariant held whenever something was shown. -/
theorem before : World.Inv (v.machine, older) := by
  obtain ⟨⟨-, fits⟩, shown⟩ := h.shown.visit
  exact ⟨fits, h.visits.older.2, shown⟩

theorem executing {s : Stmt} (he : v.event = .executing s) :
    ∃ text layers, World.Ready (v.machine, older) text layers ∧ Placed text layers (.statement s) := by
  obtain ⟨text, layers, started, placed, place⟩ := h.shown.visit.1.1.statement s he
  exact ⟨text, layers, ⟨h.before, place, started⟩, placed⟩

theorem evaluating {e : Expr} (he : v.event = .evaluating e) :
    ∃ text layers, World.Ready (v.machine, older) text layers ∧ ∀ u ∈ e.uses, Placed text layers (.use u) := by
  obtain ⟨text, layers, started, placed, place⟩ := h.shown.visit.1.1.expression e he
  exact ⟨text, layers, ⟨h.before, place, started⟩, placed⟩

end World.Inv

/-! ## Names that are declared once -/

/-- The evaluation does not stop because a name is declared twice. -/
def Eval.DeclaresOnce {α : Type} (x : Eval α) (m : Machine) : Prop :=
  Meets x m (fun _ _ => True) fun halt _ => ∀ line name, halt ≠ .fault line (.binding (.redeclared name))

theorem Halt.ne_redeclared {halt : Halt} (h : halt.redeclares ≠ true) (line : Nat) (name : String) :
    halt ≠ .fault line (.binding (.redeclared name)) := by
  rintro rfl
  exact h rfl

namespace World.Ready

variable {w : World} {text : List Stmt} {layers : List Layer} (hw : w.Ready text layers)
include hw

theorem unbound {s : Stmt} {name : Name} (hp : Placed text layers (.statement s)) (hs : s.declared? = some name)
    (hf : w.1.context.frame ≠ globalFrame) :
    w.1.store.frames.bindingAt? w.1.context.frame name.text = none := by
  have fresh := (hw.inv.texts text hw.started).fresh hp hs
  exact Option.not_isSome_iff_eq_none.1 (hw.place.unbound fresh hf)

theorem execute {s : Stmt} (hp : Placed text layers (.statement s)) (hf : w.1.context.frame ≠ globalFrame)
    (fuel : Nat) : (Scriptlet.execute fuel s).DeclaresOnce w.1 := by
  have safe := (innerAt_scoped fuel).execute hw hp
  refine meets_execute .recorder w.2 (Meets.mono safe (fun _ _ _ => trivial) ?_)
  rintro halt w' ⟨-, -, inGlobal⟩
  exact Halt.ne_redeclared fun hr => hf (inGlobal hr).symm

/-- A declaration in the body of a function has a frame of its own; an import deals with its faults itself. -/
theorem evaluate {e : Expr} (hu : ∀ u ∈ e.uses, Placed text layers (.use u)) (fuel : Nat) :
    (Scriptlet.evaluate fuel e).DeclaresOnce w.1 := by
  have safe := (innerAt_scoped fuel).evaluate hw hu
  refine meets_evaluate .recorder w.2 (Meets.mono safe (fun _ _ _ => trivial) ?_)
  rintro halt w' ⟨-, -, never⟩
  exact Halt.ne_redeclared never

end World.Ready

/-- At any moment of any session on a new machine, a statement that is about to be executed in a local frame declares
no name that the frame binds already, and its execution does not stop because a name is declared twice. A frame that is
opened for a call binds nothing, and the parameters to be bound in it have different names. The evaluation of an
expression does not stop because a name is declared twice, in whatever frame it takes place. -/
theorem local_declarations_unique (settings : Settings) (sink : Sink) (files : FileTree) (clock fuel : Nat)
    (items : List Session.Item) {v : Visit}
    (hv : v ∈ Session.visits fuel items (.initial (.initial settings sink files clock)) []) :
    (∀ s, v.event = .executing s → v.machine.context.frame ≠ globalFrame →
      (∀ name, s.declared? = some name →
        v.machine.store.frames.bindingAt? v.machine.context.frame name.text = none) ∧
      ∀ n, (execute n s).DeclaresOnce v.machine) ∧
    (∀ d f, v.event = .opening (.routine d) f →
      f ≠ globalFrame ∧ (∀ name, v.machine.store.frames.bindingAt? f name = none) ∧
        (d.params.map Name.text).Nodup) ∧
    (∀ e, v.event = .evaluating e → ∀ n, (evaluate n e).DeclaresOnce v.machine) ∧
    ∀ name, (Fault.binding (.redeclared name)).message = "Cannot redeclare variable " ++ name ++ "." := by
  obtain ⟨s, scope⟩ := (Session.initial_inScope settings sink files clock).runItems fuel items
  obtain ⟨newer, older, split⟩ := List.append_of_mem hv
  have inv := scope.inv
  rw [split] at inv
  refine ⟨fun s he inLocal => ?_, inv.shown.visit.1.1.call, fun e he n => ?_, fun name => rfl⟩
  · obtain ⟨text, layers, ready, placed⟩ := inv.executing he
    exact ⟨fun name hs => ready.unbound placed hs inLocal, ready.execute placed inLocal⟩
  · obtain ⟨text, layers, ready, placed⟩ := inv.evaluating he
    exact ready.evaluate placed n

/-- A name is about to be declared in a local frame. -/
def Visit.declaresLocally (v : Visit) (name : String) : Bool :=
  match v.event with
  | .executing s => s.declared?.any (·.text == name) && v.machine.context.frame != globalFrame
  | _ => false

theorem Visit.of_declaresLocally {v : Visit} {name : String} (h : v.declaresLocally name = true) :
    ∃ s n, v.event = .executing s ∧ s.declared? = some n ∧ n.text = name ∧
      v.machine.context.frame ≠ globalFrame := by
  unfold declaresLocally at h
  split at h
  · next s he =>
    rw [Bool.and_eq_true, Option.any_eq_true] at h
    obtain ⟨⟨n, hn, heq⟩, hf⟩ := h
    exact ⟨s, n, he, hn, beq_iff_eq.1 heq, bne_iff_ne.1 hf⟩
  · cases h

/-- A function that calls itself declares its variable in each call, in a loop. -/
theorem local_declarations_unique_recursion :
    ∃ (v : Visit) (s : Stmt) (name : Name),
      v ∈ Session.visits 30 [.text "fun f(a) { while (a > 0) { let b = a; a = a - 1; f(a); } } f(2);"] .new [] ∧
      v.event = .executing s ∧ s.declared? = some name ∧ name.text = "b" ∧
      v.machine.context.frame ≠ globalFrame ∧
      v.machine.store.frames.bindingAt? v.machine.context.frame name.text = none ∧
      ∀ n, (execute n s).DeclaresOnce v.machine := by
  have seen : (Session.visits 30 [.text "fun f(a) { while (a > 0) { let b = a; a = a - 1; f(a); } } f(2);"]
      .new []).any (·.declaresLocally "b") = true := by decide +kernel
  obtain ⟨v, hmem, declares⟩ := List.any_eq_true.1 seen
  obtain ⟨s, name, he, hs, hname, inLocal⟩ := Visit.of_declaresLocally declares
  obtain ⟨unbound, once⟩ := (local_declarations_unique _ _ _ _ _ _ hmem).1 s he inLocal
  exact ⟨v, s, name, hmem, he, hs, hname, inLocal, unbound name hs, once⟩

end Scriptlet
