/-!
# Outcomes of computations with state and failure

A computation that is run from a state ends with a result or with a failure, in both cases in some state.
`Meets` states what holds at the end; one rule for each way in which computations are put together.
-/
namespace Scriptlet

variable {ε σ α β ν : Type}

section Handlers

variable {x : EStateM ε σ α} {handle : ε → EStateM ε σ α} {s t : σ}

theorem bind_of_ok {f : α → EStateM ε σ β} {a : α} (h : x s = .ok a t) : (x >>= f) s = f a t := by
  change EStateM.bind x f s = f a t
  rw [EStateM.bind, h]

theorem bind_of_error {f : α → EStateM ε σ β} {e : ε} (h : x s = .error e t) : (x >>= f) s = .error e t := by
  change EStateM.bind x f s = .error e t
  rw [EStateM.bind, h]

theorem tryCatch_of_ok {a : α} (h : x s = .ok a t) :
    (MonadExcept.tryCatch x handle : EStateM ε σ α) s = .ok a t := by
  change EStateM.tryCatch x handle s = .ok a t
  delta EStateM.tryCatch
  dsimp only
  rw [h]

theorem tryCatch_of_error {e : ε} (h : x s = .error e t) :
    (MonadExcept.tryCatch x handle : EStateM ε σ α) s = handle e t := by
  change EStateM.tryCatch x handle s = handle e t
  delta EStateM.tryCatch
  dsimp only
  rw [h]
  rfl

end Handlers

/-- Run from `s`, the computation ends as `Q` says, or fails as `E` says. -/
def Meets (x : EStateM ε σ α) (s : σ) (Q : α → σ → Prop) (E : ε → σ → Prop) : Prop :=
  match x s with
  | .ok a t => Q a t
  | .error e t => E e t

namespace Meets

variable {s : σ} {x : EStateM ε σ α} {f : α → EStateM ε σ β} {Q Q' : α → σ → Prop} {R : β → σ → Prop}
  {E E' : ε → σ → Prop}

theorem mono (h : Meets x s Q E) (hQ : ∀ a t, Q a t → Q' a t) (hE : ∀ e t, E e t → E' e t) :
    Meets x s Q' E' := by
  unfold Meets at *
  cases hx : x s with
  | ok a t => rw [hx] at h; exact hQ a t h
  | error e t => rw [hx] at h; exact hE e t h

theorem and (h : Meets x s Q E) (h' : Meets x s Q' E') :
    Meets x s (fun a t => Q a t ∧ Q' a t) (fun e t => E e t ∧ E' e t) := by
  unfold Meets at *
  cases hx : x s with
  | ok a t => rw [hx] at h h'; exact ⟨h, h'⟩
  | error e t => rw [hx] at h h'; exact ⟨h, h'⟩

theorem pure {a : α} (h : Q a s) : Meets (Pure.pure a : EStateM ε σ α) s Q E := h

theorem bind (hx : Meets x s Q E) (hf : ∀ a t, Q a t → Meets (f a) t R E) : Meets (x >>= f) s R E := by
  have hb : (x >>= f) s = EStateM.bind x f s := rfl
  unfold Meets at hx ⊢
  rw [hb, EStateM.bind]
  cases h : x s with
  | ok a t => rw [h] at hx; exact hf a t hx
  | error e t => rw [h] at hx; exact hx

/-- What holds of a result in any case, does not depend on what was done before. -/
theorem after (h : ∀ a t, Meets (f a) t R fun _ _ => True) (s : σ) : Meets (x >>= f) s R fun _ _ => True := by
  have first : Meets x s (fun _ _ => True) fun _ _ => True := by
    unfold Meets
    split <;> trivial
  exact first.bind fun a t _ => h a t

theorem map {g : α → β} (hx : Meets x s (fun a t => R (g a) t) E) : Meets (g <$> x) s R E := by
  have hm : (g <$> x) s = EStateM.map g x s := rfl
  unfold Meets at hx ⊢
  rw [hm, EStateM.map]
  cases h : x s with
  | ok a t => rw [h] at hx; exact hx
  | error e t => rw [h] at hx; exact hx

theorem tryCatch {handle : ε → EStateM ε σ α} (hx : Meets x s Q E')
    (hh : ∀ e t, E' e t → Meets (handle e) t Q E) :
    Meets (MonadExcept.tryCatch x handle : EStateM ε σ α) s Q E := by
  unfold Meets at hx ⊢
  cases h : x s with
  | ok a t => rw [h] at hx; rw [tryCatch_of_ok h]; exact hx
  | error e t => rw [h] at hx; rw [tryCatch_of_error h]; exact hh e t hx

theorem of_ok {a : α} {t : σ} (h : Meets x s Q E) (hx : x s = .ok a t) : Q a t := by
  unfold Meets at h
  rwa [hx] at h

theorem of_error {e : ε} {t : σ} (h : Meets x s Q E) (hx : x s = .error e t) : E e t := by
  unfold Meets at h
  rwa [hx] at h

theorem eq_ok {a : α} {t : σ} (h : Meets x s (fun b u => b = a ∧ u = t) fun _ _ => False) : x s = .ok a t := by
  unfold Meets at h
  cases hx : x s with
  | ok b u => rw [hx] at h; obtain ⟨rfl, rfl⟩ := h; rfl
  | error e u => rw [hx] at h; exact h.elim

theorem eq_error {e : ε} {t : σ} (h : Meets x s (fun _ _ => False) fun d u => d = e ∧ u = t) :
    x s = .error e t := by
  unfold Meets at h
  cases hx : x s with
  | ok b u => rw [hx] at h; exact h.elim
  | error d u => rw [hx] at h; obtain ⟨rfl, rfl⟩ := h; rfl

end Meets

end Scriptlet
