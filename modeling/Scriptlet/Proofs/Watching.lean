import Scriptlet.Proofs.Rules

/-!
# Observers have no part in a run

Two runs of the same program from the same machine, with any two observers, end alike. So what a recorder
writes down of a run is the course of the run without an observer.
-/
namespace Scriptlet

variable {α β ν μ : Type}

namespace Watched

/-- The outcome without the notes. -/
def outcome : EStateM.Result Halt (Machine × ν) α → EStateM.Result Halt Machine α
  | .ok a (m, _) => .ok a m
  | .error h (m, _) => .error h m

/-- The notes at the end. -/
def notes : EStateM.Result Halt (Machine × ν) α → ν
  | .ok _ (_, n) => n
  | .error _ (_, n) => n

theorem unwatched_eq (x : Watched Unit α) (m : Machine) : x.unwatched m = outcome (x (m, ())) := by
  unfold unwatched outcome
  split <;> rename_i h <;> rw [h]

/-! ## Rules -/

theorem meets_unseen {x : Eval α} {m : Machine} {n : ν} {Q : α → Machine × ν → Prop}
    {E : Halt → Machine × ν → Prop} (h : Meets x m (fun a m' => Q a (m', n)) (fun e m' => E e (m', n))) :
    Meets (liftM x : Watched ν α) (m, n) Q E := by
  have hu : (liftM x : Watched ν α) (m, n) = unseen x (m, n) := rfl
  unfold Meets at h ⊢
  rw [hu, unseen]
  cases hx : x m with
  | ok a m' => rw [hx] at h; exact h
  | error e m' => rw [hx] at h; exact h

theorem unseen_bind (x : Eval α) (f : α → Eval β) :
    (liftM (x >>= f) : Watched ν β) = liftM x >>= fun a => liftM (f a) := by
  funext ⟨m, n⟩
  change unseen (x >>= f) (m, n) = EStateM.bind (unseen x) (fun a => unseen (f a)) (m, n)
  have bound : (x >>= f) m = EStateM.bind x f m := rfl
  unfold unseen EStateM.bind
  dsimp only
  rw [bound, EStateM.bind]
  cases x m <;> rfl

theorem meets_inContext {observer : Observer ν} {change : Context → Context} {x : Watched ν α} {m : Machine}
    {n : ν} {Q : α → Machine × ν → Prop} {E : Halt → Machine × ν → Prop}
    (h : Meets x (m.withContext (change m.context),
        observer ⟨.entering, m.withContext (change m.context)⟩ n)
      (fun a w => Q a (w.1.withContext m.context, w.2))
      (fun e w => E e (w.1.withContext m.context, w.2))) :
    Meets (inContext observer change x) (m, n) Q E := by
  unfold Meets at h ⊢
  unfold inContext
  dsimp only
  cases hx : x (m.withContext (change m.context),
    observer ⟨.entering, m.withContext (change m.context)⟩ n) with
  | ok a w => rw [hx] at h; exact h
  | error e w => rw [hx] at h; exact h

/-! ## Agreement of two observed runs -/

/-- The two evaluations differ in their notes only. -/
def Agree (x : Watched ν α) (y : Watched μ α) : Prop :=
  ∀ m n n', outcome (x (m, n)) = outcome (y (m, n'))

/-- Equal outcomes: both end with the same result, or both with the same halt, on the same machine. -/
theorem cases_of_outcome_eq {r : EStateM.Result Halt (Machine × ν) α}
    {r' : EStateM.Result Halt (Machine × μ) α} (h : outcome r = outcome r') :
    (∃ a m n n', r = .ok a (m, n) ∧ r' = .ok a (m, n')) ∨
      (∃ e m n n', r = .error e (m, n) ∧ r' = .error e (m, n')) := by
  rcases r with ⟨a, m, n⟩ | ⟨e, m, n⟩ <;> rcases r' with ⟨a', m', n'⟩ | ⟨e', m', n'⟩
  · injection h with h₁ h₂
    subst h₁ h₂
    exact .inl ⟨a, m, n, n', rfl, rfl⟩
  · cases h
  · cases h
  · injection h with h₁ h₂
    subst h₁ h₂
    exact .inr ⟨e, m, n, n', rfl, rfl⟩

namespace Agree

theorem pure (a : α) : Agree (Pure.pure a : Watched ν α) (Pure.pure a : Watched μ α) := fun _ _ _ => rfl

theorem throw (h : Halt) : Agree (MonadExcept.throw h : Watched ν α) (MonadExcept.throw h : Watched μ α) :=
  fun _ _ _ => rfl

theorem lift (x : Eval α) : Agree (liftM x : Watched ν α) (liftM x : Watched μ α) := by
  intro m n n'
  have hu : ∀ {κ : Type} (k : κ), (liftM x : Watched κ α) (m, k) = unseen x (m, k) := fun _ => rfl
  rw [hu, hu, unseen, unseen]
  cases x m <;> rfl

theorem bind {x : Watched ν α} {y : Watched μ α} {f : α → Watched ν β} {g : α → Watched μ β}
    (h : Agree x y) (hf : ∀ a, Agree (f a) (g a)) : Agree (x >>= f) (y >>= g) := by
  intro m n n'
  have hx : (x >>= f) (m, n) = EStateM.bind x f (m, n) := rfl
  have hy : (y >>= g) (m, n') = EStateM.bind y g (m, n') := rfl
  rw [hx, hy, EStateM.bind, EStateM.bind]
  obtain ⟨a, m₁, n₁, n₂, ha, hb⟩ | ⟨e, m₁, n₁, n₂, ha, hb⟩ := cases_of_outcome_eq (h m n n')
  · rw [ha, hb]
    exact hf a m₁ n₁ n₂
  · rw [ha, hb]
    rfl

theorem tryCatch {x : Watched ν α} {y : Watched μ α} {f : Halt → Watched ν α} {g : Halt → Watched μ α}
    (h : Agree x y) (hf : ∀ e, Agree (f e) (g e)) :
    Agree (MonadExcept.tryCatch x f : Watched ν α) (MonadExcept.tryCatch y g : Watched μ α) := by
  intro m n n'
  obtain ⟨a, m₁, n₁, n₂, ha, hb⟩ | ⟨e, m₁, n₁, n₂, ha, hb⟩ := cases_of_outcome_eq (h m n n')
  · rw [tryCatch_of_ok ha, tryCatch_of_ok hb]
    rfl
  · rw [tryCatch_of_error ha, tryCatch_of_error hb]
    exact hf e m₁ n₁ n₂

theorem inContext (o : Observer ν) (p : Observer μ) (change : Context → Context) {x : Watched ν α}
    {y : Watched μ α} (h : Agree x y) :
    Agree (Watched.inContext o change x) (Watched.inContext p change y) := by
  intro m n n'
  unfold Watched.inContext
  dsimp only
  obtain ⟨a, m₁, n₁, n₂, ha, hb⟩ | ⟨e, m₁, n₁, n₂, ha, hb⟩ :=
    cases_of_outcome_eq (h (m.withContext (change m.context))
      (o ⟨.entering, m.withContext (change m.context)⟩ n)
      (p ⟨.entering, m.withContext (change m.context)⟩ n'))
  · rw [ha, hb]
    rfl
  · rw [ha, hb]
    rfl

theorem respects (o : Observer ν) (p : Observer μ) : Respects (fun _ x y => Agree x y) o p where
  pure := pure
  throw := throw
  lift _ := lift _
  bind := bind
  tryCatch _ := tryCatch
  markImported _ := lift _
  tell _ _ _ _ := rfl
  inContext _ hx := inContext o p _ hx
  enterCall _ _ _ _ _ ho hx := bind (lift _) fun _ => bind ho fun _ => inContext o p _ hx

end Agree

end Watched

/-! ## Whole runs -/

/-- A watched evaluation ends like the evaluation without an observer. -/
theorem outcome_watchExpr (o : Observer ν) (fuel : Nat) (e : Expr) (m : Machine) (n : ν) :
    Watched.outcome (watchExpr o fuel e (m, n)) = evaluate fuel e m := by
  rw [evaluate, Watched.unwatched_eq]
  exact ((Watched.Agree.respects o .silent).watch fuel).1 e m n ()

theorem outcome_watchStmt (o : Observer ν) (fuel : Nat) (s : Stmt) (m : Machine) (n : ν) :
    Watched.outcome (watchStmt o fuel s (m, n)) = execute fuel s m := by
  rw [execute, Watched.unwatched_eq]
  exact ((Watched.Agree.respects o .silent).watch fuel).2 s m n ()

theorem outcome_watchText (o : Observer ν) (fuel : Nat) (statements : List Stmt) (m : Machine) (n : ν) :
    Watched.outcome (watchText o fuel statements (m, n)) = interpret fuel statements m := by
  rw [interpret, Watched.unwatched_eq]
  exact (Watched.Agree.respects o .silent).watchText fuel statements m n ()

/-- What is seen of a watched evaluation holds of the evaluation without an observer. -/
theorem Watched.meets_outcome {x : Watched ν α} {y : Eval α} {m : Machine} {n : ν} {Q : α → Machine → Prop}
    {E : Halt → Machine → Prop} (same : Watched.outcome (x (m, n)) = y m)
    (h : Meets x (m, n) (fun a w => Q a w.1) fun e w => E e w.1) : Meets y m Q E := by
  unfold Meets at h ⊢
  rw [← same]
  cases hr : x (m, n) with
  | ok a w => rw [hr] at h; exact h
  | error e w => rw [hr] at h; exact h

theorem meets_evaluate (o : Observer ν) (n : ν) {fuel : Nat} {e : Expr} {m : Machine} {Q : Value → Machine → Prop}
    {E : Halt → Machine → Prop}
    (h : Meets (watchExpr o fuel e) (m, n) (fun a w => Q a w.1) fun e w => E e w.1) :
    Meets (evaluate fuel e) m Q E :=
  Watched.meets_outcome (outcome_watchExpr o fuel e m n) h

theorem meets_execute (o : Observer ν) (n : ν) {fuel : Nat} {s : Stmt} {m : Machine} {Q : Flow → Machine → Prop}
    {E : Halt → Machine → Prop}
    (h : Meets (watchStmt o fuel s) (m, n) (fun a w => Q a w.1) fun e w => E e w.1) :
    Meets (execute fuel s) m Q E :=
  Watched.meets_outcome (outcome_watchStmt o fuel s m n) h

end Scriptlet
