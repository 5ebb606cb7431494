import Scriptlet.Proofs.Watching

/-!
# Evaluations put the context back

Blocks, loops, calls and imports change the context of the machine while they run. Whatever an evaluation
does inside and however it ends, it ends in the context it began in. Calls nest no deeper than the limit of
the settings, or than they did at the start.
-/
namespace Scriptlet

variable {α β ν : Type}

/-- No single step changes the context, the settings, the record of imported files or where diagnostics go. -/
theorem Machine.Steps.context {m m' : Machine} (h : m.Steps m') : m'.context = m.context ∧
    m'.settings = m.settings ∧ m'.imported = m.imported ∧ m'.reporter.sink = m.reporter.sink := by
  induction h with
  | refl => exact ⟨rfl, rfl, rfl, rfl⟩
  | tail _ step ih =>
    cases step with
    | data hs | native line f args hs => rw [hs]; exact ih
    | reported hs => rw [hs]; exact ih
    | loaded hs => rw [hs.same]; exact ih
    | _ => exact ih

/-- From a machine whose calls nest at most `limit` deep, the evaluation returns to the context it began in.
`N` holds of the notes all along. -/
def Watched.Returns (limit : Nat) (N : ν → Prop) (x : Watched ν α) : Prop :=
  ∀ m n, m.settings.maxCallDepth ≤ limit → m.context.callDepth ≤ limit → N n →
    Meets x (m, n)
      (fun _ w => w.1.context = m.context ∧ w.1.settings = m.settings ∧ N w.2)
      (fun _ w => w.1.context = m.context ∧ w.1.settings = m.settings ∧ N w.2)

namespace Watched.Returns

variable {limit : Nat} {N : ν → Prop}

/-- An evaluation that goes on where another one returned. -/
theorem rest {x : Watched ν α} (hx : Returns limit N x) {m m' : Machine} {n : ν}
    (hl : m.settings.maxCallDepth ≤ limit) (hd : m.context.callDepth ≤ limit)
    (hc : m'.context = m.context) (hs : m'.settings = m.settings) (hn : N n) :
    Meets x (m', n)
      (fun _ w => w.1.context = m.context ∧ w.1.settings = m.settings ∧ N w.2)
      (fun _ w => w.1.context = m.context ∧ w.1.settings = m.settings ∧ N w.2) := by
  rw [← hc, ← hs]
  exact hx m' n (by rw [hs]; exact hl) (by rw [hc]; exact hd) hn

theorem lift {x : Eval α} (hx : x.Stepwise) : Returns limit N (liftM x : Watched ν α) := by
  intro m n _ _ hn
  apply Watched.meets_unseen
  refine Meets.mono (hx m) ?_ ?_
  · intro a m' h
    exact ⟨h.context.1, h.context.2.1, hn⟩
  · intro e m' h
    exact ⟨h.context.1, h.context.2.1, hn⟩

theorem bind {x : Watched ν α} {f : α → Watched ν β} (hx : Returns limit N x)
    (hf : ∀ a, Returns limit N (f a)) : Returns limit N (x >>= f) := by
  intro m n hl hd hn
  refine Meets.bind (hx m n hl hd hn) ?_
  rintro a ⟨m', n'⟩ ⟨hc, hs, hn'⟩
  exact (hf a).rest hl hd hc hs hn'

theorem tryCatch {x : Watched ν α} {f : Halt → Watched ν α} (hx : Returns limit N x)
    (hf : ∀ e, Returns limit N (f e)) : Returns limit N (MonadExcept.tryCatch x f : Watched ν α) := by
  intro m n hl hd hn
  refine Meets.tryCatch (hx m n hl hd hn) ?_
  rintro e ⟨m', n'⟩ ⟨hc, hs, hn'⟩
  exact (hf e).rest hl hd hc hs hn'

section Observed

variable {observer : Observer ν}
  (ho : ∀ visit n, visit.machine.context.callDepth ≤ limit → N n → N (observer visit n))
include ho

/-- A changed context is put back. Inside it calls may be nested as deep as allowed. -/
theorem meets_inContext {change : Context → Context} {x : Watched ν α} (hx : Returns limit N x)
    {m : Machine} {n : ν} (hl : m.settings.maxCallDepth ≤ limit)
    (hd : (change m.context).callDepth ≤ limit) (hn : N n) :
    Meets (Watched.inContext observer change x) (m, n)
      (fun _ w => w.1.context = m.context ∧ w.1.settings = m.settings ∧ N w.2)
      (fun _ w => w.1.context = m.context ∧ w.1.settings = m.settings ∧ N w.2) := by
  apply Watched.meets_inContext
  refine Meets.mono (hx _ _ hl hd (ho _ n hd hn)) ?_ ?_
  · rintro a w ⟨_, hs, hw⟩
    exact ⟨rfl, hs, hw⟩
  · rintro e w ⟨_, hs, hw⟩
    exact ⟨rfl, hs, hw⟩

/-- The one place where calls come to nest deeper. -/
theorem enterCall (line : Nat) {opening : Watched ν FrameId} {x : Watched ν Flow}
    (hf : Returns limit N opening) (hx : Returns limit N x) :
    Returns limit N (do
      Eval.checkDepth line
      let frame ← opening
      Watched.inContext observer (·.enterCall frame) x) := by
  intro m n hl hd hn
  have checked : Meets (liftM (Eval.checkDepth line) : Watched ν Unit) (m, n)
      (fun _ w => w = (m, n) ∧ m.context.callDepth < m.settings.maxCallDepth) fun _ w => w = (m, n) := by
    refine Watched.meets_unseen ((Eval.Reads.checkDepth line).mono ?_ ?_)
    · rintro _ _ ⟨rfl, hlt⟩
      exact ⟨rfl, hlt⟩
    · rintro _ _ ⟨-, rfl⟩
      rfl
  refine Meets.bind (checked.mono (fun _ _ h => h) ?_) ?_
  · rintro _ _ rfl
    exact ⟨rfl, rfl, hn⟩
  · rintro _ _ ⟨rfl, hlt⟩
    refine Meets.bind (hf m n hl hd hn) ?_
    rintro frame ⟨m', n'⟩ ⟨hc', hs', hn'⟩
    have deeper : (m'.context.enterCall frame).callDepth ≤ limit := by
      rw [hc']
      exact Nat.le_trans hlt hl
    rw [← hc', ← hs']
    exact meets_inContext ho hx (by rw [hs']; exact hl) deeper hn'

theorem respects : Respects (fun _ x (_ : Watched ν _) => Returns limit N x) observer observer where
  pure _ _ _ _ _ hn := ⟨rfl, rfl, hn⟩
  throw _ _ _ _ _ hn := ⟨rfl, rfl, hn⟩
  lift hx := lift hx
  bind hx hf := bind hx hf
  tryCatch _ hx hf := tryCatch hx hf
  markImported _ _ _ _ _ hn := ⟨rfl, rfl, hn⟩
  tell event m n _ hd hn := ⟨rfl, rfl, ho ⟨event, m⟩ n hd hn⟩
  inContext hc hx m n hl hd hn := meets_inContext ho hx hl (by rw [hc]; exact hd) hn
  enterCall line _ _ _ _ hf hx := enterCall ho line hf hx

end Observed

end Watched.Returns

end Scriptlet
