import Scriptlet.Proofs.LikeAnalyses
import Scriptlet.Proofs.LikeMachines

/-!
# Like texts on their way to being run

Texts with like tokens are loaded and analysed alike. If no problem is found then the machines stay alike, and
otherwise like problems are reported.
-/
namespace Scriptlet

variable {p : Pairing}

/-- Scans that differ in lines only. -/
structure Scan.Like (p : Pairing) (scan scan' : Scan) : Prop where
  tokens : List.Forall₂ (Token.Like p) scan.tokens scan'.tokens
  errors : List.Forall₂ (fun e e' => p.Line e.1 e'.1 ∧ e'.2 = e.2) scan.errors scan'.errors
  inComment : scan'.inComment = scan.inComment

theorem Scan.like_refl (scan : Scan) : scan.Like p scan where
  tokens := List.forall₂_same.2 fun _ _ => ⟨rfl, rfl, .inl rfl⟩
  errors := List.forall₂_same.2 fun _ _ => ⟨.inl rfl, rfl⟩
  inComment := rfl

theorem isEmpty_eq_of_forall₂ {α β : Type} {R : α → β → Prop} {l : List α} {l' : List β}
    (h : List.Forall₂ R l l') : l'.isEmpty = l.isEmpty := by
  cases h <;> rfl

theorem Scan.Like.hadError {scan scan' : Scan} (h : scan.Like p scan') : scan'.hadError = scan.hadError :=
  congrArg not (isEmpty_eq_of_forall₂ h.errors)

theorem Pairing.apart (p : Pairing) : Analysis.Apart p.newTrees p.Node := by
  rintro id id' other other' ⟨i, rfl, rfl⟩ held
  obtain ⟨hlt, hlt', -⟩ | ⟨j, rfl, rfl⟩ := held
  · have ne : p.first + i ≠ other := Nat.ne_of_gt (Nat.lt_add_right i hlt)
    have ne' : p.first' + i ≠ other' := Nat.ne_of_gt (Nat.lt_add_right i hlt')
    simp only [ne, ne']
  · rw [Nat.add_left_cancel_iff, Nat.add_left_cancel_iff]

theorem Stmt.Like.taken {ss ss' : List Stmt} (h : List.Forall₂ (Stmt.Like p.newTrees) ss ss') :
    List.Forall₂ (Stmt.Like p.trees) ss ss' := by
  have nodes {id id'} : p.newTrees.node id id' → p.trees.node id id' := .inr
  have lines {l l'} : p.newTrees.line l l' → p.trees.line l l' := id
  exact Stmt.Like.mono_list lines nodes h

theorem Stmt.Like.isDeclaration {c : Matching} {s s' : Stmt} (h : s.Like c s') :
    s'.isDeclaration = s.isDeclaration := by
  cases h <;> rfl

theorem Stmt.Like.filter_isDeclaration {c : Matching} {ss ss' : List Stmt} (h : List.Forall₂ (Stmt.Like c) ss ss') :
    List.Forall₂ (Stmt.Like c) (ss.filter Stmt.isDeclaration) (ss'.filter Stmt.isDeclaration) := by
  apply List.rel_filter _ h
  intro s s' hs
  exact iff_of_eq (congrArg (· = true) hs.isDeclaration.symm)

namespace Machine

/-- After two steps with the same verdict: alike if it is good, and in any case with like reports. -/
structure Judged (p : Pairing) (good good' : Bool) (m m' : Machine) : Prop where
  same : good' = good
  like : good = true → m.Like p m'
  stopped : m.Stopped p m'

/-- Nothing is reported of a sound text. -/
theorem load_of_sound {m : Machine} {c : Bool} {text : String} (h : (m.load c text).1.isSound = true) :
    (m.load c text).2 = { m with nextNode := (m.load c text).2.nextNode } := by
  have good : (!(Scan.ofText c text).hadError &&
      !(Parse.ofTokens m.nextNode (Scan.ofText c text).tokens).hadError) = true := h
  simp only [Scan.hadError, Parse.hadError, Bool.not_not, Bool.and_eq_true, List.isEmpty_iff] at good
  rw [load, reportScan, good.1, good.2]
  rfl

theorem analyse_of_sound {m : Machine} {statements : List Stmt} (h : (m.analyse statements).1 = true) :
    (m.analyse statements).2 = { m with distances := (m.analyse statements).2.distances } := by
  have good : (Analysis.ofStatements m.distances statements).problems = [] := List.isEmpty_iff.1 h
  rw [analyse, good]
  rfl

namespace Like

variable {m m' : Machine} (h : m.Like p m')

include h

theorem reportScan {scan scan' : Scan} (hs : scan.Like p scan') :
    (m.reportScan scan).Stopped p (m'.reportScan scan') := by
  apply h.stopped.reportAll
  apply List.rel_map _ hs.errors
  intro e e' he
  exact ⟨he.1, congrArg Problem.lexical he.2, rfl⟩

theorem load {c c' : Bool} {text text' : String} (hs : (Scan.ofText c text).Like p (Scan.ofText c' text')) :
    Judged p (m.load c text).1.isSound (m'.load c' text').1.isSound (m.load c text).2 (m'.load c' text').2 ∧
      List.Forall₂ (Stmt.Like p.newTrees) (m.load c text).1.statements (m'.load c' text').1.statements ∧
      (m'.load c' text').1.inComment = (m.load c text).1.inComment := by
  have parse := Parse.ofTokens_like hs.tokens h.nextNode
  have problems : List.Forall₂ (Diagnostic.Like p)
      ((Parse.ofTokens m.nextNode (Scan.ofText c text).tokens).problems.map .ofSyntactic)
      ((Parse.ofTokens m'.nextNode (Scan.ofText c' text').tokens).problems.map .ofSyntactic) := by
    apply List.rel_map _ parse.problems
    intro e e' he
    exact ⟨he.line, congrArg Problem.syntactic he.problem, he.location⟩
  have same : (m'.load c' text').1.isSound = (m.load c text).1.isSound :=
    congrArg₂ (fun s p => !s && !p) hs.hadError parse.hadError
  refine ⟨⟨same, ?_, ?_⟩, parse.statements, hs.inComment⟩
  · intro good
    rw [load_of_sound good, load_of_sound (same.trans good)]
    exact { h with nextNode := parse.nextId }
  · exact ((h.reportScan hs).reportAll problems).change rfl rfl rfl rfl rfl rfl

theorem analyse {statements statements' : List Stmt}
    (hs : List.Forall₂ (Stmt.Like p.newTrees) statements statements') :
    Judged p (m.analyse statements).1 (m'.analyse statements').1
      (m.analyse statements).2 (m'.analyse statements').2 := by
  have analysis := Analysis.ofStatements_like p.apart hs h.distances
  have same : (m'.analyse statements').1 = (m.analyse statements).1 := isEmpty_eq_of_forall₂ analysis.problems
  refine ⟨same, ?_, ?_⟩
  · intro good
    have distances {id id'} : p.Node id id' →
        (m'.analyse statements').2.distances[id']? = (m.analyse statements).2.distances[id]? := by
      rw [m.analyse_same statements, m'.analyse_same statements']
      exact analysis.distances
    rw [analyse_of_sound good, analyse_of_sound (same.trans good)]
    exact { h with distances := distances }
  · have problems : List.Forall₂ (Diagnostic.Like p)
        ((Analysis.ofStatements m.distances statements).problems.map .ofScoping)
        ((Analysis.ofStatements m'.distances statements').problems.map .ofScoping) := by
      apply List.rel_map _ analysis.problems
      intro e e' he
      exact ⟨he.line, congrArg Problem.scoping he.problem, he.location⟩
    have recorded : { m with distances := (Analysis.ofStatements m.distances statements).distances }.Stopped p
        { m' with distances := (Analysis.ofStatements m'.distances statements').distances } :=
      h.stopped.change rfl rfl rfl rfl rfl rfl
    exact recorded.reportAll problems

end Like

end Machine

/-- A step whose result is checked. -/
theorem Twins.checked {α β γ δ : Type} {R : α → β → Prop} {Q : γ → δ → Prop} {f : Machine → α × Machine}
    {f' : Machine → β × Machine} (good : α → Bool) (good' : β → Bool) {l l' : Nat} (hl : p.Line l l')
    (fault : Fault) {x : α → Eval γ} {x' : β → Eval δ}
    (hf : ∀ m m', m.Like p m' →
      Machine.Judged p (good (f m).1) (good' (f' m').1) (f m).2 (f' m').2 ∧ R (f m).1 (f' m').1)
    (hx : ∀ a a', R a a' → Twins p.machines Q (x a) (x' a')) :
    Twins p.machines Q (do
      let a ← MonadState.modifyGet f
      if !good a then Eval.fail l fault
      x a) (do
      let a' ← MonadState.modifyGet f'
      if !good' a' then Eval.fail l' fault
      x' a') := by
  intro m m' hm
  obtain ⟨judged, hr⟩ := hf m m' hm
  let rest (a : α) : Eval γ := do
    if !good a then Eval.fail l fault
    x a
  let rest' (a : β) : Eval δ := do
    if !good' a then Eval.fail l' fault
    x' a
  change p.machines.Ends Q (rest (f m).1 (f m).2) (rest' (f' m').1 (f' m').2)
  unfold rest rest'
  rw [judged.same]
  cases hg : good (f m).1 with
  | false => exact .error ⟨.fault fault hl, judged.stopped⟩
  | true => exact hx _ _ hr _ _ (judged.like hg)

theorem Twins.readDeclarations {l l' : Nat} (hl : p.Line l l') (path text : String) :
    Twins p.machines (List.Forall₂ (Stmt.Like p.trees)) (Eval.readDeclarations l path text)
      (Eval.readDeclarations l' path text) := by
  apply checked (R := fun r r' => List.Forall₂ (Stmt.Like p.newTrees) r.statements r'.statements)
    Program.isSound Program.isSound hl
  · intro m m' hm
    obtain ⟨judged, statements, -⟩ := hm.load (Scan.like_refl (Scan.ofText false text))
    exact ⟨judged, statements⟩
  · intro r r' hr
    have declarations := Stmt.Like.filter_isDeclaration hr
    apply checked (R := fun _ _ => True) id id hl
    · intro m m' hm
      exact ⟨hm.analyse declarations, trivial⟩
    · intro _ _ _
      exact .pure (Stmt.Like.taken declarations)

end Scriptlet
