import Scriptlet.Proofs.Watching

/-!
# More fuel changes nothing

A run that does not run out of fuel ends in the same way with any more fuel. So the fuel is a bound on a run and has no
other part in it.
-/
namespace Scriptlet

variable {α β ν : Type}

/-- The first evaluation runs out of fuel, or else both end alike. -/
def Watched.Within (x y : Watched ν α) : Prop := ∀ w, (∃ w', x w = .error .outOfFuel w') ∨ x w = y w

namespace Watched.Within

theorem refl (x : Watched ν α) : x.Within x := fun _ => .inr rfl

theorem outOfFuel (y : Watched ν α) : Within (MonadExcept.throw .outOfFuel) y := fun w => .inl ⟨w, rfl⟩

theorem bind {x y : Watched ν α} {f g : α → Watched ν β} (h : x.Within y) (hf : ∀ a, (f a).Within (g a)) :
    (x >>= f).Within (y >>= g) := by
  intro w
  have left : (x >>= f) w = EStateM.bind x f w := rfl
  have right : (y >>= g) w = EStateM.bind y g w := rfl
  rw [left, right, EStateM.bind, EStateM.bind]
  rcases h w with ⟨w', spent⟩ | same
  · rw [spent]
    exact .inl ⟨w', rfl⟩
  · rw [same]
    cases y w with
    | ok a w' => exact hf a w'
    | error halt w' => exact .inr rfl

theorem tryCatch {x y : Watched ν α} {f g : Halt → Watched ν α}
    (passes : f .outOfFuel = MonadExcept.throw .outOfFuel) (h : x.Within y) (hf : ∀ e, (f e).Within (g e)) :
    Within (MonadExcept.tryCatch x f : Watched ν α) (MonadExcept.tryCatch y g : Watched ν α) := by
  intro w
  rcases h w with ⟨w', spent⟩ | same
  · rw [tryCatch_of_error spent, passes]
    exact .inl ⟨w', rfl⟩
  · cases ends : y w with
    | ok a w' =>
      rw [tryCatch_of_ok (same.trans ends), tryCatch_of_ok ends]
      exact .inr rfl
    | error halt w' =>
      rw [tryCatch_of_error (same.trans ends), tryCatch_of_error ends]
      exact hf halt w'

theorem inContext (o : Observer ν) (change : Context → Context) {x y : Watched ν α} (h : x.Within y) :
    Within (Watched.inContext o change x) (Watched.inContext o change y) := by
  rintro ⟨m, n⟩
  unfold Watched.inContext
  dsimp only
  rcases h (m.withContext (change m.context), o ⟨.entering, m.withContext (change m.context)⟩ n) with
    ⟨w', spent⟩ | same
  · rw [spent]
    exact .inl ⟨_, rfl⟩
  · rw [same]
    exact .inr rfl

theorem respects (o : Observer ν) : Respects (fun _ x y => Within x y) o o where
  pure _ := refl _
  throw _ := refl _
  lift _ := refl _
  bind := bind
  tryCatch := tryCatch
  markImported _ := refl _
  tell _ := refl _
  inContext _ := inContext o _
  enterCall _ _ _ _ _ ho hx := bind (refl _) fun _ => bind ho fun _ => inContext o _ hx

/-- A loop may take more turns. -/
theorem loop {x y : Watched ν (Option α)} (h : x.Within y) {n m : Nat} (hn : n ≤ m) :
    Within (Watched.loop x n) (Watched.loop y m) := by
  induction n generalizing m with
  | zero => exact outOfFuel _
  | succ n ih =>
    obtain ⟨m, rfl⟩ := Nat.exists_eq_add_of_lt hn
    refine bind h fun r => ?_
    cases r with
    | some a => exact refl _
    | none => exact ih (Nat.le_add_right n m)

end Watched.Within

/-! ## Whole runs -/

theorem watch_within (o : Observer ν) {n m : Nat} (h : n ≤ m) :
    (∀ e, (watchExpr o n e).Within (watchExpr o m e)) ∧ (∀ s, (watchStmt o n s).Within (watchStmt o m s)) := by
  induction n generalizing m with
  | zero => exact ⟨fun _ => .outOfFuel _, fun _ => .outOfFuel _⟩
  | succ n ih =>
    obtain ⟨m, rfl⟩ := Nat.exists_eq_add_of_lt h
    have less : n ≤ n + m := Nat.le_add_right n m
    have respects := Watched.Within.respects o
    have parts : Inner.Related (fun _ x y => Watched.Within x y) (innerAt o n) (innerAt o (n + m)) :=
      ⟨respects, fun hx => hx.loop less, (ih less).1, (ih less).2⟩
    exact ⟨fun e => respects.bind (respects.tell _) fun _ => parts.evaluateExpr e,
      fun s => respects.bind (respects.tell _) fun _ => parts.executeStmt s⟩

theorem watchText_within (o : Observer ν) {n m : Nat} (h : n ≤ m) (statements : List Stmt) :
    (watchText o n statements).Within (watchText o m statements) := by
  refine .bind (.refl _) fun _ => ?_
  induction statements with
  | nil => exact .refl _
  | cons s ss ih => exact .bind ((watch_within o h).2 s) fun _ => ih

/-- A run that does not run out of fuel ends in the same way with more fuel. -/
theorem interpret_of_le {n m : Nat} (h : n ≤ m) (statements : List Stmt) (machine : Machine)
    (enough : Meets (interpret n statements) machine (fun _ _ => True) fun halt _ => halt ≠ .outOfFuel) :
    interpret m statements machine = interpret n statements machine := by
  rcases watchText_within .silent h statements (machine, ()) with ⟨⟨m', u⟩, spent⟩ | same
  · rw [Meets, interpret, Watched.unwatched_eq, spent] at enough
    exact absurd rfl enough
  · rw [interpret, interpret, Watched.unwatched_eq, Watched.unwatched_eq, same]

end Scriptlet
