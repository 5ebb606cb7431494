import Scriptlet.Proofs.Outcome

/-!
# Two computations side by side

Two computations are twins if, run from related states, both end with related results in related states, or
both fail in a related way. There is one rule for each way in which computations are put together.
-/
namespace Scriptlet

variable {ε σ α α' β β' : Type}

/-- What is to hold between the states of two computations, and between their failures. -/
structure Coupling (ε σ : Type) where
  state : σ → σ → Prop
  failure : ε → σ → ε → σ → Prop

/-- Both computations ended in the same way. -/
inductive Coupling.Ends (c : Coupling ε σ) (R : α → α' → Prop) :
    EStateM.Result ε σ α → EStateM.Result ε σ α' → Prop where
  | ok {a a' s s'} : R a a' → c.state s s' → c.Ends R (.ok a s) (.ok a' s')
  | error {e e' s s'} : c.failure e s e' s' → c.Ends R (.error e s) (.error e' s')

theorem Coupling.Ends.cases {c : Coupling ε σ} {R : α → α' → Prop} {r : EStateM.Result ε σ α}
    {r' : EStateM.Result ε σ α'} (h : c.Ends R r r') :
    (∃ a a' s s', r = .ok a s ∧ r' = .ok a' s' ∧ R a a' ∧ c.state s s') ∨
      (∃ e e' s s', r = .error e s ∧ r' = .error e' s' ∧ c.failure e s e' s') := by
  cases h with
  | ok ha hs => exact .inl ⟨_, _, _, _, rfl, rfl, ha, hs⟩
  | error he => exact .inr ⟨_, _, _, _, rfl, rfl, he⟩

/-- Run from related states, the computations end in the same way. -/
def Twins (c : Coupling ε σ) (R : α → α' → Prop) (x : EStateM ε σ α) (x' : EStateM ε σ α') : Prop :=
  ∀ s s', c.state s s' → c.Ends R (x s) (x' s')

namespace Twins

variable {c : Coupling ε σ} {R R' : α → α' → Prop} {Q : β → β' → Prop} {x y : EStateM ε σ α}
  {x' y' : EStateM ε σ α'}

theorem pure {a : α} {a' : α'} (h : R a a') :
    Twins c R (Pure.pure a : EStateM ε σ α) (Pure.pure a' : EStateM ε σ α') :=
  fun _ _ hs => .ok h hs

theorem throw {e e' : ε} (h : ∀ s s', c.state s s' → c.failure e s e' s') :
    Twins c R (MonadExcept.throw e : EStateM ε σ α) (MonadExcept.throw e' : EStateM ε σ α') :=
  fun s s' hs => .error (h s s' hs)

theorem mono (hx : Twins c R x x') (h : ∀ a a', R a a' → R' a a') : Twins c R' x x' := by
  intro s s' hs
  obtain ⟨a, a', t, t', hr, hr', ha, ht⟩ | ⟨e, e', t, t', hr, hr', he⟩ := (hx s s' hs).cases
  · rw [hr, hr']
    exact .ok (h a a' ha) ht
  · rw [hr, hr']
    exact .error he

theorem bind {f : α → EStateM ε σ β} {f' : α' → EStateM ε σ β'} (hx : Twins c R x x')
    (hf : ∀ a a', R a a' → Twins c Q (f a) (f' a')) : Twins c Q (x >>= f) (x' >>= f') := by
  intro s s' hs
  change c.Ends Q (EStateM.bind x f s) (EStateM.bind x' f' s')
  rw [EStateM.bind, EStateM.bind]
  obtain ⟨a, a', t, t', hr, hr', ha, ht⟩ | ⟨e, e', t, t', hr, hr', he⟩ := (hx s s' hs).cases
  · rw [hr, hr']
    exact hf a a' ha t t' ht
  · rw [hr, hr']
    exact .error he

theorem map {f : α → β} {f' : α' → β'} (hx : Twins c R x x') (hf : ∀ a a', R a a' → Q (f a) (f' a')) :
    Twins c Q (f <$> x) (f' <$> x') := by
  intro s s' hs
  change c.Ends Q (EStateM.map f x s) (EStateM.map f' x' s')
  rw [EStateM.map, EStateM.map]
  obtain ⟨a, a', t, t', hr, hr', ha, ht⟩ | ⟨e, e', t, t', hr, hr', he⟩ := (hx s s' hs).cases
  · rw [hr, hr']
    exact .ok (hf a a' ha) ht
  · rw [hr, hr']
    exact .error he

theorem tryCatch {f : ε → EStateM ε σ α} {f' : ε → EStateM ε σ α'} (hx : Twins c R x x')
    (hf : ∀ e e' s s', c.failure e s e' s' → c.Ends R (f e s) (f' e' s')) :
    Twins c R (MonadExcept.tryCatch x f : EStateM ε σ α) (MonadExcept.tryCatch x' f' : EStateM ε σ α') := by
  intro s s' hs
  obtain ⟨a, a', t, t', hr, hr', ha, ht⟩ | ⟨e, e', t, t', hr, hr', he⟩ := (hx s s' hs).cases
  · rw [tryCatch_of_ok hr, tryCatch_of_ok hr']
    exact .ok ha ht
  · rw [tryCatch_of_error hr, tryCatch_of_error hr']
    exact hf e e' t t' he

theorem ite {p p' : Prop} [Decidable p] [Decidable p'] (hp : p ↔ p') (hx : Twins c R x x')
    (hy : Twins c R y y') : Twins c R (if p then x else y) (if p' then x' else y') := by
  by_cases h : p
  · rw [if_pos h, if_pos (hp.1 h)]
    exact hx
  · rw [if_neg h, if_neg fun h' => h (hp.2 h')]
    exact hy

theorem get : Twins c c.state (MonadState.get : EStateM ε σ σ) MonadState.get := fun _ _ hs => .ok hs hs

theorem set {s s' : σ} (h : c.state s s') :
    Twins c (fun _ _ => True) (MonadStateOf.set s : EStateM ε σ PUnit) (MonadStateOf.set s') :=
  fun _ _ _ => .ok trivial h

theorem modifyGet {f : σ → α × σ} {f' : σ → α' × σ} (hf : ∀ s s', c.state s s' → R (f s).1 (f' s').1)
    (hs : ∀ s s', c.state s s' → c.state (f s).2 (f' s').2) :
    Twins c R (MonadState.modifyGet f : EStateM ε σ α) (MonadState.modifyGet f' : EStateM ε σ α') :=
  fun s s' h => .ok (hf s s' h) (hs s s' h)

end Twins

end Scriptlet
