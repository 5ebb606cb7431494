import Scriptlet.Proofs.Sessions

/-!
# Histories of sessions

The machines of a session in the order in which they come up. An evolution says which machines are good and what
later machines have in common with earlier ones. If the single steps, the start of a script and the run of a text
follow it, whole sessions do. The run of a text follows an evolution that is closed under all single changes.
-/
namespace Scriptlet

/-- What the machines of a session keep: each of them is good, and the later ones keep something of those before. -/
structure Evolution where
  Good : Machine → Prop
  Keeps : (earlier later : Machine) → Prop
  refl (m : Machine) : Keeps m m
  trans {m m' m'' : Machine} : Keeps m m' → Keeps m' m'' → Keeps m m''

namespace Evolution

variable {E : Evolution} {m m' : Machine} {machines : List Machine}

/-- The machines, the latest first, follow the evolution. -/
structure Holds (E : Evolution) (machines : List Machine) : Prop where
  good : ∀ m ∈ machines, E.Good m
  keeps : machines.Pairwise fun later earlier => E.Keeps earlier later

theorem Holds.first (h : E.Good m) : E.Holds [m] :=
  ⟨List.forall_mem_singleton.2 h, List.pairwise_singleton ..⟩

theorem Holds.latest (h : E.Holds (m :: machines)) : E.Good m := h.good m (List.mem_cons_self ..)

theorem Holds.next (h : E.Holds (m :: machines)) (hg : E.Good m') (hk : E.Keeps m m') :
    E.Holds (m' :: m :: machines) := by
  have before := List.pairwise_cons.1 h.keeps
  refine ⟨List.forall_mem_cons.2 ⟨hg, h.good⟩, List.pairwise_cons.2 ⟨?_, h.keeps⟩⟩
  exact List.forall_mem_cons.2 ⟨hk, fun x hx => E.trans (before.1 x hx) hk⟩

/-- The latest machine is shown once more. -/
theorem Holds.again (h : E.Holds (m :: machines)) : E.Holds (m :: m :: machines) := h.next h.latest (E.refl m)

theorem Holds.sublist {others : List Machine} (h : E.Holds machines) (hs : others.Sublist machines) :
    E.Holds others :=
  ⟨fun x hx => h.good x (hs.subset hx), h.keeps.sublist hs⟩

/-- Another machine in place of the latest one. -/
theorem Holds.change (h : E.Holds (m :: machines)) (hg : E.Good m') (hk : E.Keeps m m') :
    E.Holds (m' :: machines) :=
  (h.next hg hk).sublist ((List.sublist_cons_self m machines).cons_cons m')

end Evolution

/-- The machines of a run so far, the latest first: the present one, those seen by the recorder, and older
ones. -/
def machines (older : List Machine) (w : Machine × List Visit) : List Machine :=
  w.1 :: (w.2.map Visit.machine ++ older)

namespace Session

/-- The machines of a session, the latest first: those that a recorder sees, and those between the texts. -/
def history (fuel : Nat) : List Item → Session → List Machine → List Machine
  | [], s, older => s.machine :: older
  | item :: items, s, older =>
    history fuel items (final (runItem fuel item s))
      ((watchItem fuel item s []).map Visit.machine ++ s.machine :: older)

variable {s : Session}

theorem prepareText_steps {source : String} {r : Option (List Stmt)} {s' : Session}
    (h : prepareText source s = .ok r s') : s.machine.Steps s'.machine := by
  have loaded : s.machine.Steps (s.machine.load s.inComment source).2 := .single (.loaded (.parsed ..))
  have analysed : s.machine.Steps ((s.machine.load s.inComment source).2.analyse
      (s.machine.load s.inComment source).1.statements).2 := .single (.loaded (.analysedAll ..))
  rcases prepareText_cases source s with ⟨-, result⟩ | ⟨-, -, result⟩ | ⟨-, -, result⟩
  · cases result.symm.trans h
    exact loaded
  · cases result.symm.trans h
    exact analysed
  · cases result.symm.trans h
    exact analysed

end Session

namespace Evolution

/-- What a session is put together from follows the evolution. -/
structure Followed (E : Evolution) : Prop where
  steps {m m' : Machine} : m.Steps m' → E.Good m → E.Good m' ∧ E.Keeps m m'
  enterScript (path : String) {m : Machine} : E.Good m →
    E.Good (Session.enterScript path m) ∧ E.Keeps m (Session.enterScript path m)
  watchText (fuel : Nat) (statements : List Stmt) (older : List Machine) (w : Machine × List Visit) :
    E.Holds (machines older w) →
    Meets (watchText .recorder fuel statements) w (fun _ w' => E.Holds (machines older w'))
      (fun _ w' => E.Holds (machines older w'))

namespace Followed

open Session

variable {E : Evolution} (hE : E.Followed) {s : Session} {seen : List Visit} {older : List Machine}
include hE

theorem change {m m' : Machine} {machines : List Machine} (h : E.Holds (m :: machines)) (hs : m.Steps m') :
    E.Holds (m' :: machines) :=
  let ⟨hg, hk⟩ := hE.steps hs h.latest
  h.change hg hk

theorem runText (h : E.Holds (machines older (s.machine, seen))) (fuel : Nat) (source : String) :
    E.Holds (machines older ((final (runText fuel source s)).machine, watchSource fuel source s seen)) := by
  obtain ⟨r, s', hprepare⟩ := prepareText_ends source s
  have prepared := hE.change h (prepareText_steps hprepare)
  rw [runText_eq hprepare, watchSource, hprepare]
  cases r with
  | none => exact prepared
  | some statements =>
    have reported := runStatements_machine fuel statements s' seen
    have run := hE.watchText fuel statements older (s'.machine, seen) prepared
    unfold Meets at run
    cases hrun : Scriptlet.watchText .recorder fuel statements (s'.machine, seen) with
    | ok a w =>
      rw [hrun] at run reported
      simp only [hrun]
      exact hE.change run (.single (.reported reported))
    | error e w =>
      rw [hrun] at run reported
      simp only [hrun]
      exact hE.change run (.single (.reported reported))

theorem runItem (h : E.Holds (machines older (s.machine, seen))) (fuel : Nat) (item : Item) :
    E.Holds (machines older ((final (runItem fuel item s)).machine, watchItem fuel item s seen)) := by
  cases item with
  | text source => exact hE.runText h fuel source
  | script path =>
    rw [runItem_script]
    unfold watchItem
    dsimp only
    split
    · exact h
    · obtain ⟨hg, hk⟩ := hE.enterScript path h.latest
      have entered : E.Holds (machines older (Session.enterScript path s.machine, seen)) := h.change hg hk
      exact hE.runText entered fuel _

/-- All machines of a session follow the evolution. -/
theorem history (h : E.Holds (s.machine :: older)) (fuel : Nat) (items : List Item) :
    E.Holds (history fuel items s older) := by
  induction items generalizing s older with
  | nil => exact h
  | cons item items ih =>
    have start : E.Holds (machines (s.machine :: older) (s.machine, [])) := h.again
    exact ih (hE.runItem start fuel item)

end Followed

/-! ## Closed evolutions -/

end Evolution

/-- A single change of a machine in a session. -/
inductive Machine.Change (m : Machine) : Machine → Prop where
  | step {m' : Machine} : m.Step m' → Change m m'
  | context (c : Context) : Change m (m.withContext c)
  | imported (places : List Place) : Change m { m with imported := places }
  | script (path : String) : Change m (Session.enterScript path m)

namespace Evolution

/-- Every single change of a machine follows the evolution. -/
def Closed (E : Evolution) : Prop :=
  ∀ ⦃m m' : Machine⦄, m.Change m' → E.Good m → E.Good m' ∧ E.Keeps m m'

/-- The run goes on as the evolution says. -/
def Follows (E : Evolution) (older : List Machine) {α : Type} (x : Watched (List Visit) α) : Prop :=
  ∀ w, E.Holds (machines older w) →
    Meets x w (fun _ w' => E.Holds (machines older w')) (fun _ w' => E.Holds (machines older w'))

namespace Closed

variable {E : Evolution} (hE : E.Closed) {older : List Machine} {α β : Type}
include hE

theorem steps {m m' : Machine} (hs : m.Steps m') (hm : E.Good m) : E.Good m' ∧ E.Keeps m m' := by
  induction hs with
  | refl => exact ⟨hm, E.refl m⟩
  | tail _ step ih =>
    obtain ⟨hg, hk⟩ := hE (.step step) ih.1
    exact ⟨hg, E.trans ih.2 hk⟩

theorem lift {x : Eval α} (hx : x.Stepwise) : E.Follows older (liftM x : Watched (List Visit) α) := by
  intro w hw
  have changed {m : Machine} (hs : w.1.Steps m) : E.Holds (machines older (m, w.2)) :=
    hw.change (hE.steps hs hw.latest).1 (hE.steps hs hw.latest).2
  exact Watched.meets_unseen (Meets.mono (hx w.1) (fun _ _ => changed) fun _ _ => changed)

omit hE in
theorem bind {x : Watched (List Visit) α} {f : α → Watched (List Visit) β} (hx : E.Follows older x)
    (hf : ∀ a, E.Follows older (f a)) : E.Follows older (x >>= f) :=
  fun w hw => Meets.bind (hx w hw) fun a w' hw' => hf a w' hw'

theorem inContext {change : Context → Context} {x : Watched (List Visit) α} (hx : E.Follows older x) :
    E.Follows older (Watched.inContext .recorder change x) := by
  intro w hw
  have moved {m : Machine} {machines : List Machine} (c : Context) (h : E.Holds (m :: machines)) :
      E.Holds (m.withContext c :: machines) :=
    h.change (hE (.context c) h.latest).1 (hE (.context c) h.latest).2
  -- the changed machine is shown before the evaluation begins
  have entered := (moved (change w.1.context) hw).again
  exact Watched.meets_inContext (Meets.mono (hx _ entered) (fun _ _ => moved _) fun _ _ => moved _)

theorem respects :
    Respects (fun _ x (_ : Watched (List Visit) _) => E.Follows older x) .recorder .recorder where
  pure _ _ hw := hw
  throw _ _ hw := hw
  lift hx := hE.lift hx
  bind hx hf := bind hx hf
  tryCatch _ hx hf w hw := Meets.tryCatch (hx w hw) fun e w' hw' => hf e w' hw'
  markImported _ _ hw := hw.change (hE (.imported _) hw.latest).1 (hE (.imported _) hw.latest).2
  tell _ _ hw := hw.again
  inContext _ hx := hE.inContext hx
  enterCall line _ _ _ _ ho hx :=
    bind (hE.lift (Eval.Quiet.checkDepth line).stepwise) fun _ => bind ho fun _ => hE.inContext hx

theorem followed : E.Followed where
  steps := hE.steps
  enterScript path _ hm := hE (.script path) hm
  watchText fuel statements _ := hE.respects.watchText fuel statements

end Closed

end Evolution

end Scriptlet
