import Scriptlet.Proofs.ScopedRules
import Scriptlet.Proofs.Sessions

/-!
# Names are used in scope

A session runs texts and scripts on one machine. Whenever a name with a recorded distance is read in such a
session, the frame at that distance is the activation of the region in which the name is declared, and binds
the name. Assignments find a binding in the same way, except in the initializer of the variable itself.
-/
namespace Scriptlet

open World Layers

/-! ## Runs of any length -/

theorem innerAt_scoped (fuel : Nat) : (innerAt .recorder fuel).Scoped := by
  induction fuel with
  | zero =>
    exact ⟨rfl, fun hw _ => .throw hw.inv rfl, fun hw _ => .throw hw.inv rfl, fun hw _ => .throw hw.inv rfl⟩
  | succ n ih =>
    refine ⟨rfl, ?_, ?_, ?_⟩
    · intro w text layers use hw hp
      have used : ∀ u ∈ (Expr.variable use).uses, Placed text layers (.use u) := by
        intro u hu
        cases List.mem_singleton.1 hu
        exact hp
      refine .bind (.tell ih.observer (hw.tellEvaluating used)) ?_
      rintro _ _ hi - rfl
      exact .reads hi (hi.readName use.id use.name).result fun v hv => ⟨hv.1, rfl, hv.2⟩
    · intro w text layers e hw hu
      refine .bind (.tell ih.observer (hw.tellEvaluating hu)) ?_
      rintro _ _ hi hg rfl
      exact ih.evaluateExpr (hw.grow hi hg) hu
    · intro w text layers s hw hp
      refine .bind (.tell ih.observer (hw.inv.tellExecuting hw.started hp hw.place)) ?_
      rintro _ _ hi hg rfl
      exact ih.executeStmt (hw.grow hi (grows_tell _ _ _)) hp

/-- The first statements of a row are run; others may follow. -/
theorem watchAll_safe (fuel : Nat) {w : World} {text : List Stmt} {layers : List Layer}
    (hw : w.Ready text layers) {ss more : List Stmt} (hp : Placed text layers (.statements (ss ++ more))) :
    Safe (· = w.1.context.frame) w (watchAll .recorder fuel ss) fun _ _ => True := by
  induction ss generalizing w layers with
  | nil => exact .pure hw.inv trivial
  | cons s ss ih =>
    refine .bind ((innerAt_scoped fuel).execute hw hp.first) fun flow w' hi hg hpost => ?_
    have rest := ih ⟨hi, hpost.1, hw.started.mono hg.visits⟩ hp.rest
    rwa [hg.context] at rest

/-- A text that is prepared can be run in the global frame. -/
theorem watchText_safe (fuel : Nat) {w : World} (hi : w.Inv) (hf : w.1.context.frame = globalFrame)
    {text : List Stmt} (hr : w.Prepared text) :
    Safe (· = globalFrame) w (watchText .recorder fuel text) fun _ _ => True := by
  refine .bind (.tell (innerAt_scoped fuel).observer (hi.tellStarting hr)) ?_
  rintro _ _ hi' - rfl
  have current : (w.tell (.starting text)).1.context.frame = globalFrame := hf
  have placed : Placed text [] (.statements (text ++ [])) := by
    rw [List.append_nil]
    exact .whole
  have run := watchAll_safe fuel ⟨hi', at_global current, _, List.mem_cons_self .., rfl⟩ placed
  rwa [current] at run

/-! ## Sessions -/

namespace Session

/-- Between two texts the session is in the global frame, and all frames are in scope. -/
structure InScope (s : Session) (older : List Visit) : Prop where
  inv : World.Inv (s.machine, older)
  frame : s.machine.context.frame = globalFrame

variable {s : Session} {older : List Visit}

/-- Preparing a text always ends; statements that come out of it can be started. -/
theorem InScope.prepareText (h : InScope s older) (source : String) :
    ∃ r s', Session.prepareText source s = .ok r s' ∧ InScope s' older ∧
      ∀ statements, r = some statements → World.Prepared (s'.machine, older) statements := by
  let loaded := (s.machine.load s.inComment source).2
  let program := (s.machine.load s.inComment source).1
  let analysed := loaded.analyse program.statements
  obtain ⟨takes, distances⟩ := s.machine.load_takes s.inComment source
  have hload := h.inv.takes takes fun id _ => by rw [distances]
  obtain ⟨hanalyse, hresolved⟩ := h.inv.analyse takes distances
  have inGlobal {m : Machine} (hm : World.Inv (m, older) ∧ World.Grows (s.machine, older) (m, older) noFrame) :
      m.context.frame = globalFrame := (congrArg Context.frame hm.2.context).trans h.frame
  rcases prepareText_cases source s with ⟨-, result⟩ | ⟨-, -, result⟩ | ⟨-, hsound, result⟩
  · exact ⟨_, _, result, ⟨hload.1, inGlobal hload⟩, fun _ heq => nomatch heq⟩
  · exact ⟨_, _, result, ⟨hanalyse.1, inGlobal hanalyse⟩, fun _ heq => nomatch heq⟩
  · refine ⟨_, _, result, ⟨hanalyse.1, inGlobal hanalyse⟩, fun statements heq => ?_⟩
    cases heq
    exact hresolved hsound

/-- The observer sees the run that the session makes. -/
theorem InScope.runStatements (h : InScope s older) (fuel : Nat) {statements : List Stmt}
    (hr : World.Prepared (s.machine, older) statements) :
    InScope (final (Session.runStatements fuel statements s))
      (Watched.notes (watchText .recorder fuel statements (s.machine, older))) := by
  have safe := watchText_safe fuel h.inv h.frame hr
  have reported := runStatements_machine fuel statements s older
  have inGlobal {w : World} (hg : World.Grows (s.machine, older) w (· = globalFrame)) :
      w.1.context.frame = globalFrame := (congrArg Context.frame hg.context).trans h.frame
  unfold Safe Meets at safe
  cases hrun : watchText .recorder fuel statements (s.machine, older) with
  | ok a w =>
    rw [hrun] at safe reported
    exact ⟨safe.1.alike reported.alike,
      (congrArg Context.frame reported.context).trans (inGlobal safe.2.1)⟩
  | error e w =>
    rw [hrun] at safe reported
    exact ⟨safe.1.alike reported.alike, (congrArg Context.frame reported.context).trans (inGlobal safe.2.1)⟩

theorem InScope.runText (h : InScope s older) (fuel : Nat) (source : String) :
    InScope (final (Session.runText fuel source s)) (watchSource fuel source s older) := by
  obtain ⟨r, s', hprepare, hs', hresolved⟩ := h.prepareText source
  rw [runText_eq hprepare]
  unfold watchSource
  rw [hprepare]
  cases r with
  | none => exact hs'
  | some statements => exact hs'.runStatements fuel (hresolved statements rfl)

theorem InScope.runItem (h : InScope s older) (fuel : Nat) (item : Item) :
    InScope (final (Session.runItem fuel item s)) (watchItem fuel item s older) := by
  cases item with
  | text source => exact h.runText fuel source
  | script path =>
    rw [runItem_script]
    unfold watchItem
    dsimp only
    split
    · exact h
    · next source _ =>
      have entered : InScope { s with machine := enterScript path s.machine } older :=
        ⟨h.inv.alike ⟨rfl, rfl, rfl, rfl, rfl⟩, h.frame⟩
      exact entered.runText fuel source

theorem InScope.runItems (h : InScope s older) (fuel : Nat) (items : List Item) :
    ∃ s', InScope s' (Session.visits fuel items s older) := by
  induction items generalizing s older with
  | nil => exact ⟨s, h⟩
  | cons item items ih => exact ih (h.runItem fuel item)

theorem InScope.visits (h : InScope s older) (fuel : Nat) (items : List Item) :
    AllInScope (Session.visits fuel items s older) := by
  obtain ⟨_, h'⟩ := h.runItems fuel items
  exact h'.inv.visits

/-! ### The first text -/

theorem inv_empty {m : Machine} (hs : m.store = ⟨#[⟨∅, none⟩], #[], #[], 0⟩) (hd : m.distances = ∅) :
    World.Inv (m, []) where
  values := by
    refine ⟨fun f name b hb => ?_, fun elements he => ?_, fun id name v hv => ?_⟩
    · have unbound : m.store.frames.bindingAt? f name = none := by
        rw [hs]
        unfold Frames.bindingAt?
        cases f <;> rfl
      exact nomatch unbound.symm.trans hb
    · rw [hs] at he
      exact absurd he (Array.not_mem_empty elements)
    · rw [hs] at hv
      cases hv
  texts _ ht := by
    obtain ⟨_, hv, _⟩ := ht
    cases hv
  apart _ _ _ ht := by
    obtain ⟨_, hv, _⟩ := ht
    cases hv
  unused id _ := by
    rw [hd]
    exact Std.TreeMap.getElem?_emptyc
  opened _ _ ho := by
    obtain ⟨_, hv, _⟩ := ho
    cases hv
  only _ _ _ ho := by
    obtain ⟨_, hv, _⟩ := ho
    cases hv
  nonempty := by
    change 0 < m.store.frames.size
    rw [hs]
    exact Nat.one_pos
  visits := trivial
  shown := trivial

/-- The native functions need no frames. -/
theorem initial_inScope (settings : Settings) (sink : Sink) (files : FileTree) (clock : Nat) :
    InScope (.initial (.initial settings sink files clock)) [] := by
  let empty : Machine :=
    { Machine.initial settings sink files clock with store := ⟨#[⟨∅, none⟩], #[], #[], 0⟩ }
  have start : World.Inv (empty, []) := inv_empty rfl rfl
  refine ⟨Store.initial_induction (P := fun s => World.Inv ({ empty with store := s }, [])) start ?_, rfl⟩
  intro s f _ h
  have counted : World.Inv ({ empty with store := s.freshIdentity.2 }, []) := h.alike ⟨rfl, rfl, rfl, rfl, rfl⟩
  exact counted.bind 0 f.name (.native s.nextIdentity (.global f)) false trivial

end Session

theorem AllShown.visit {newer older : List Visit} {v : Visit} (h : AllShown (newer ++ v :: older)) :
    (v.Shown older ∧ World.Fits (v.machine, older)) ∧ AllShown older := by
  induction newer with
  | nil => exact h
  | cons _ _ ih => exact ih h.2

theorem AllInScope.visit {newer older : List Visit} {v : Visit} (h : AllInScope (newer ++ v :: older)) :
    v.ReadsInScope older ∧ v.AssignsInScope older := by
  induction newer with
  | nil => exact h.1
  | cons _ _ ih => exact ih h.2

/-! ## Reading and assigning in sessions -/

namespace Visit

/-- A name with the given distance is about to be read. -/
def readsAt (v : Visit) (name : String) (d : Nat) : Bool :=
  match v.event with
  | .evaluating e =>
    match e.reading? with
    | some u => u.name == name && v.machine.distances[u.id]? == some d
    | none => false
  | _ => false

/-- A name with the given distance is about to be assigned. -/
def assignsAt (v : Visit) (name : String) (d : Nat) : Bool :=
  match v.event with
  | .assigning target _ => target.name.text == name && v.machine.distances[target.id]? == some d
  | _ => false

theorem of_readsAt {v : Visit} {name : String} {d : Nat} (h : v.readsAt name d = true) :
    ∃ e u, v.event = .evaluating e ∧ e.reading? = some u ∧ u.name = name ∧
      v.machine.distances[u.id]? = some d := by
  unfold readsAt at h
  split at h
  · next e he =>
    split at h
    · next u hu =>
      rw [Bool.and_eq_true, beq_iff_eq, beq_iff_eq] at h
      exact ⟨e, u, he, hu, h.1, h.2⟩
    · cases h
  · cases h

theorem of_assignsAt {v : Visit} {name : String} {d : Nat} (h : v.assignsAt name d = true) :
    ∃ target value, v.event = .assigning target value ∧ target.name.text = name ∧
      v.machine.distances[target.id]? = some d := by
  unfold assignsAt at h
  split at h
  · next target value he =>
    rw [Bool.and_eq_true, beq_iff_eq, beq_iff_eq] at h
    exact ⟨target, value, he, h.1, h.2⟩
  · cases h

end Visit

/-- Whenever a variable, `this` or `super` with a recorded distance is about to be evaluated, at any moment of
any session from a new machine, the frame at that distance exists, is the activation of the region that
declares the name nearest to the expression, and binds the name. So the read fails only if the variable has no
value yet. -/
theorem reads_in_scope (settings : Settings) (sink : Sink) (files : FileTree) (clock fuel : Nat)
    (items : List Session.Item) {newer older : List Visit} {v : Visit} {e : Expr} {u : Use} {d : Nat}
    (hv : Session.visits fuel items (.initial (.initial settings sink files clock)) [] = newer ++ v :: older)
    (he : v.event = .evaluating e) (hu : e.reading? = some u) (hd : v.machine.distances[u.id]? = some d) :
    ∃ s f layer, Reaches older v.machine u s d f layer ∧
      (v.machine.store.frames.bindingAt? f u.name).isSome ∧
      ∀ error, v.machine.store.frames.getAt v.machine.context.frame d u.name = .error error →
        error = .uninitialized u.name := by
  have all := (Session.initial_inScope settings sink files clock).visits fuel items
  rw [hv] at all
  obtain ⟨s, f, layer, reached, bound⟩ := all.visit.1 e u d he hu hd
  exact ⟨s, f, layer, reached, bound, fun error => Frames.error_of_getAt reached.frame bound⟩

/-- In a method of a subclass, `super` is found two frames out. -/
theorem reads_in_scope_super :
    ∃ (newer older : List Visit) (v : Visit) (u : Use),
      Session.visits 9 [.text "class A { f() {} } { class B : A { f() { super.f; } } B().f(); }"] .new [] =
        newer ++ v :: older ∧
      u.name = superName ∧ ∃ s f layer, Reaches older v.machine u s 2 f layer ∧
        (v.machine.store.frames.bindingAt? f u.name).isSome := by
  have seen : (Session.visits 9 [.text "class A { f() {} } { class B : A { f() { super.f; } } B().f(); }"]
      .new []).any (·.readsAt superName 2) = true := by decide +kernel
  obtain ⟨v, hmem, hread⟩ := List.any_eq_true.1 seen
  obtain ⟨newer, older, hv⟩ := List.append_of_mem hmem
  obtain ⟨e, u, he, hu, hname, hd⟩ := Visit.of_readsAt hread
  obtain ⟨s, f, layer, reached, bound, -⟩ := reads_in_scope _ _ _ _ _ _ hv he hu hd
  exact ⟨newer, older, v, u, hv, hname, s, f, layer, reached, bound⟩

/-- Whenever the value of an assignment to a name with a recorded distance is about to be stored, the frame at
that distance is the activation of the region that declares the name nearest to the assignment. It binds the
name just if the assignment does not stand in the initializer of that very variable. Then the assignment fails
only if the name is constant or has another type, and otherwise the name is undefined. -/
theorem assigns_in_scope (settings : Settings) (sink : Sink) (files : FileTree) (clock fuel : Nat)
    (items : List Session.Item) {newer older : List Visit} {v : Visit} {target : Variable} {value : Value}
    {d : Nat}
    (hv : Session.visits fuel items (.initial (.initial settings sink files clock)) [] = newer ++ v :: older)
    (he : v.event = .assigning target value) (hd : v.machine.distances[target.id]? = some d) :
    ∃ s f layer, Reaches older v.machine target.assigning s d f layer ∧
      ((v.machine.store.frames.bindingAt? f target.name.text).isSome ↔ ¬s.Initializes target.name.text) ∧
      (¬s.Initializes target.name.text → ∀ error,
        v.machine.store.frames.assignTargetAt v.machine.context.frame d target.name.text value = .error error →
          error = .constant target.name.text ∨
            ∃ given fixed, error = .typeMismatch target.name.text given fixed) ∧
      (s.Initializes target.name.text →
        v.machine.store.frames.assignTargetAt v.machine.context.frame d target.name.text value =
          .error (.undefined target.name.text)) := by
  have all := (Session.initial_inScope settings sink files clock).visits fuel items
  rw [hv] at all
  obtain ⟨s, f, layer, reached, bound⟩ := all.visit.2 target value d he hd
  refine ⟨s, f, layer, reached, bound, ?_, ?_⟩
  · exact fun hs error => Frames.error_of_assignTargetAt reached.frame (bound.2 hs)
  · intro hs
    refine Frames.assignTargetAt_of_unbound reached.frame (Option.not_isSome_iff_eq_none.1 fun hb => ?_)
    exact bound.1 hb hs

/-- An assignment in an inner block. -/
theorem assigns_in_scope_block :
    ∃ (newer older : List Visit) (v : Visit) (target : Variable),
      Session.visits 9 [.text "{ let a = 1; { a = 2; } }"] .new [] = newer ++ v :: older ∧
      target.name.text = "a" ∧ ∃ s f layer, Reaches older v.machine target.assigning s 1 f layer ∧
        ((v.machine.store.frames.bindingAt? f target.name.text).isSome ↔ ¬s.Initializes target.name.text) := by
  have seen : (Session.visits 9 [.text "{ let a = 1; { a = 2; } }"] .new []).any (·.assignsAt "a" 1) = true := by
    decide +kernel
  obtain ⟨v, hmem, hassign⟩ := List.any_eq_true.1 seen
  obtain ⟨newer, older, hv⟩ := List.append_of_mem hmem
  obtain ⟨target, value, he, hname, hd⟩ := Visit.of_assignsAt hassign
  obtain ⟨s, f, layer, reached, bound, -⟩ := assigns_in_scope _ _ _ _ _ _ hv he hd
  exact ⟨newer, older, v, target, hv, hname, s, f, layer, reached, bound⟩

/-- A variable may be assigned in its own initializer as far as the analysis is concerned. The assignment has a
distance, but the frame there does not bind the variable yet, and the run stops. -/
theorem assignment_in_own_initializer_unbound :
    ((Session.visits 9 [.text "{ let a = (a = 1); }"] .new []).any fun v =>
      v.assignsAt "a" 0 && (v.machine.store.frames.bindingAt? v.machine.context.frame "a").isNone) = true ∧
    (Session.final (Session.runText 9 "{ let a = (a = 1); }" .new)).hadError = false ∧
    (Session.final (Session.runText 9 "{ let a = (a = 1); }" .new)).machine.reporter.diagnostics =
      [.ofFault 0 (.binding (.undefined "a"))] := by
  decide +kernel

end Scriptlet
