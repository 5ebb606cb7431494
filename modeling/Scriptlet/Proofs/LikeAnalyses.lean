import Scriptlet.Proofs.LikeParses
import Scriptlet.Proofs.Scoping

/-!
# Analyses of like trees

The analysis of like trees opens the same scopes, finds the same problems, and records the same distances for
corresponding nodes.
-/
namespace Scriptlet

namespace Analysis

/-- States with the same scopes and like problems. The nodes that are held against each other have the same
distance. -/
structure State.Like (c : Matching) (held : NodeId → NodeId → Prop) (st st' : State) : Prop where
  scopes : st'.scopes = st.scopes
  distances {id id' : NodeId} : held id id' → st'.distances[id']? = st.distances[id]?
  problems : List.Forall₂ (Located.Like c.line) st.problems st'.problems

/-- Nodes of the trees are held against each other only if they correspond. -/
def Apart (c : Matching) (held : NodeId → NodeId → Prop) : Prop :=
  ∀ {id id' other other' : NodeId}, c.node id id' → held other other' → (id = other ↔ id' = other')

/-- The actions change like states alike. -/
def Mirrors (c : Matching) (held : NodeId → NodeId → Prop) (x x' : Analysis Unit) : Prop :=
  ∀ st st', st.Like c held st' → (exec x st).Like c held (exec x' st')

variable {c : Matching} {held : NodeId → NodeId → Prop} {x x' y y' : Analysis Unit}

namespace Mirrors

theorem nothing : Mirrors c held (return ()) (return ()) := fun _ _ h => h

theorem seq (hx : Mirrors c held x x') (hy : Mirrors c held y y') : Mirrors c held (do x; y) (do x'; y') :=
  fun st st' h => hy _ _ (hx st st' h)

theorem ite {q : Prop} [Decidable q] (hx : Mirrors c held x x') (hy : Mirrors c held y y') :
    Mirrors c held (if q then x else y) (if q then x' else y') := by
  split
  · exact hx
  · exact hy

/-- A report that is made in both or in none, before another action. -/
theorem check {q : Prop} [Decidable q] (hx : Mirrors c held x x') (hy : Mirrors c held y y') :
    Mirrors c held
      (do
        if q then x
        y)
      (do
        if q then x'
        y') :=
  ite (hx.seq hy) hy

theorem report {l l' : Nat} (hl : c.line l l') (lexeme : String) (problem : ScopeError) :
    Mirrors c held (report l lexeme problem) (report l' lexeme problem) := by
  intro st st' h
  exact ⟨h.scopes, h.distances, List.rel_append h.problems (.cons ⟨hl, rfl, rfl⟩ .nil)⟩

theorem openScope (scope : Scope) : Mirrors c held (openScope scope) (openScope scope) :=
  fun _ _ h => ⟨congrArg (scope :: ·) h.scopes, h.distances, h.problems⟩

theorem closeScope : Mirrors c held closeScope closeScope :=
  fun _ _ h => ⟨congrArg List.tail h.scopes, h.distances, h.problems⟩

theorem updateScope (f : Scope → Scope) : Mirrors c held (updateScope f) (updateScope f) := by
  intro st st' h
  rw [exec_updateScope, exec_updateScope]
  exact ⟨congrArg (updateHead f) h.scopes, h.distances, h.problems⟩

theorem declare {n n' : Name} (hn : n.Like c n') : Mirrors c held (declare n) (declare n') := by
  intro st st' h
  rw [exec_declare, exec_declare, hn.text, h.scopes]
  apply ite (report hn.line _ _) nothing
  exact updateScope _ _ _ h

theorem define {n n' : Name} (hn : n.Like c n') : Mirrors c held (define n) (define n') := by
  unfold Analysis.define
  rw [hn.text]
  exact updateScope _

theorem bind (hc : Apart c held) {id id' : NodeId} (hid : c.node id id') (name : String) :
    Mirrors c held (bind id name) (bind id' name) := by
  intro st st' h
  rw [exec_bind, exec_bind, h.scopes]
  split
  · next d _ =>
    refine ⟨rfl, ?_, h.problems⟩
    intro other other' ho
    rw [Std.TreeMap.getElem?_insert, Std.TreeMap.getElem?_insert, h.distances ho]
    simp only [Nat.compare_eq_eq, hc hid ho]
  · exact h

theorem readVariable (hc : Apart c held) {v v' : Variable} (hv : v.Like c v') :
    Mirrors c held (readVariable v) (readVariable v') := by
  intro st st' h
  rw [exec_readVariable, exec_readVariable, hv.name.text, h.scopes]
  apply bind hc hv.node
  exact ite (report hv.name.line _ _) nothing _ _ h

end Mirrors

/-! ## Expressions -/

mutual

theorem visitExpr_mirrors (hc : Apart c held) (around : Surroundings) {e e' : Expr} (h : e.Like c e') :
    Mirrors c held (visitExpr around e) (visitExpr around e') := by
  cases h with
  | literal => exact .nothing
  | group he =>
    rw [visitExpr, visitExpr]
    exact visitExpr_mirrors hc around he
  | unary _ he =>
    rw [visitExpr, visitExpr]
    exact visitExpr_mirrors hc around he
  | binary ha _ hb => exact (visitExpr_mirrors hc around ha).seq (visitExpr_mirrors hc around hb)
  | logical ha _ hb => exact (visitExpr_mirrors hc around ha).seq (visitExpr_mirrors hc around hb)
  | «variable» hv => exact .readVariable hc hv
  | assign hv he =>
    have target := Mirrors.bind hc hv.node
    rw [visitExpr, visitExpr, hv.name.text]
    exact (visitExpr_mirrors hc around he).seq (target _)
  | this hid hl =>
    rw [visitExpr, visitExpr]
    split
    · exact .report hl _ _
    · exact .bind hc hid _
  | super hid hl _ =>
    rw [visitExpr, visitExpr]
    split
    · exact .report hl _ _
    · exact .bind hc hid _
  | call hf _ hes => exact (visitExpr_mirrors hc around hf).seq (visitExprs_mirrors hc around hes)
  | get ho _ =>
    rw [visitExpr, visitExpr]
    exact visitExpr_mirrors hc around ho
  | set ho _ he => exact (visitExpr_mirrors hc around he).seq (visitExpr_mirrors hc around ho)
  | array hes => exact visitExprs_mirrors hc around hes
termination_by structural e

theorem visitExprs_mirrors (hc : Apart c held) (around : Surroundings) {es es' : List Expr}
    (h : List.Forall₂ (Expr.Like c) es es') :
    Mirrors c held (visitExprs around es) (visitExprs around es') := by
  cases h with
  | nil => exact .nothing
  | cons he hes => exact (visitExpr_mirrors hc around he).seq (visitExprs_mirrors hc around hes)
termination_by structural es

end

theorem visitOptional_mirrors (hc : Apart c held) (around : Surroundings) {e e' : Option Expr}
    (h : Option.Rel (Expr.Like c) e e') : Mirrors c held (visitOptional around e) (visitOptional around e') := by
  cases h with
  | none => exact .nothing
  | some he => exact visitExpr_mirrors hc around he

/-! ## Statements -/

theorem declareParams_mirrors {ns ns' : List Name} (h : List.Forall₂ (Name.Like c) ns ns') :
    Mirrors c held (declareParams ns) (declareParams ns') := by
  induction h with
  | nil => exact .nothing
  | cons hn _ ih => exact (Mirrors.declare hn).seq ((Mirrors.define hn).seq ih)

theorem enterSuperclass_mirrors (hc : Apart c held) (around : Surroundings) {n n' : Name} (hn : n.Like c n')
    {s s' : Option Variable} (hs : Option.Rel (Variable.Like c) s s') :
    Mirrors c held (enterSuperclass around n s) (enterSuperclass around n' s') := by
  cases hs with
  | none => exact .nothing
  | some hv =>
    have parent := visitExpr_mirrors hc around (.variable hv)
    rw [enterSuperclass, enterSuperclass, hv.name.text, hn.text]
    exact .check (.report hv.name.line _ _) (parent.seq (.openScope _))

theorem enterClass_mirrors (hc : Apart c held) (around : Surroundings) {n n' : Name} (hn : n.Like c n')
    {s s' : Option Variable} (hs : Option.Rel (Variable.Like c) s s') :
    Mirrors c held (enterClass around n s) (enterClass around n' s') := by
  have superclass := enterSuperclass_mirrors hc around hn hs
  exact (Mirrors.declare hn).seq ((Mirrors.define hn).seq (superclass.seq (.openScope _)))

theorem leaveClass_mirrors {s s' : Option Variable} (hs : Option.Rel (Variable.Like c) s s') :
    Mirrors c held (leaveClass s) (leaveClass s') := by
  cases hs with
  | none => exact Mirrors.closeScope.seq .nothing
  | some _ => exact Mirrors.closeScope.seq .closeScope

theorem returnProblems_mirrors (around : Surroundings) {l l' : Nat} (hl : c.line l l') {e e' : Option Expr}
    (he : Option.Rel (Expr.Like c) e e') :
    Mirrors c held (returnProblems around l e) (returnProblems around l' e') := by
  unfold returnProblems
  rw [isSome_eq_of_rel he]
  exact .check (.report hl _ _) (.ite (.report hl _ _) .nothing)

theorem classOf_eq {s s' : Option Variable} (hs : Option.Rel (Variable.Like c) s s') : classOf s' = classOf s := by
  rw [classOf, classOf, isSome_eq_of_rel hs]

mutual

theorem visitStmt_mirrors (hc : Apart c held) (around : Surroundings) {s s' : Stmt} (h : s.Like c s') :
    Mirrors c held (visitStmt around s) (visitStmt around s') := by
  cases h with
  | expression he => exact visitExpr_mirrors hc around he
  | print he => exact visitExpr_mirrors hc around he
  | letDecl hn he =>
    exact (Mirrors.declare hn).seq ((visitOptional_mirrors hc around he).seq (.define hn))
  | constDecl hn he => exact (Mirrors.declare hn).seq ((visitExpr_mirrors hc around he).seq (.define hn))
  | block hb => exact (Mirrors.openScope _).seq ((visitStmts_mirrors hc around hb).seq .closeScope)
  | ifThen he ht => exact (visitExpr_mirrors hc around he).seq (visitStmt_mirrors hc around ht)
  | ifElse he ht ho =>
    have branches := (visitStmt_mirrors hc around ht).seq (visitStmt_mirrors hc around ho)
    exact (visitExpr_mirrors hc around he).seq branches
  | whileLoop he hb hi =>
    have turn := (visitStmt_mirrors hc around hb).seq (visitOptional_mirrors hc around hi)
    exact (visitExpr_mirrors hc around he).seq turn
  | doWhile hb he => exact (visitStmt_mirrors hc around hb).seq (visitExpr_mirrors hc around he)
  | function hd =>
    exact (Mirrors.declare hd.name).seq ((Mirrors.define hd.name).seq (visitRoutine_mirrors hc _ hd))
  | @classDecl _ _ superclass _ _ _ _ _ hn hs hms hss =>
    rw [visitStmt, visitStmt, classOf_eq hs]
    let inside : Surroundings := { around with classKind := classOf superclass }
    have statics := (visitStatics_mirrors hc inside hss).seq (leaveClass_mirrors hs)
    have members := (visitMethods_mirrors hc inside hms).seq ((Mirrors.updateScope (·.erase thisName)).seq statics)
    exact (enterClass_mirrors hc inside hn hs).seq members
  | returnValue hl he => exact (returnProblems_mirrors around hl he).seq (visitOptional_mirrors hc around he)
  | breakLoop | continueLoop | importFile => exact .nothing
termination_by structural s

theorem visitStmts_mirrors (hc : Apart c held) (around : Surroundings) {ss ss' : List Stmt}
    (h : List.Forall₂ (Stmt.Like c) ss ss') :
    Mirrors c held (visitStmts around ss) (visitStmts around ss') := by
  cases h with
  | nil => exact .nothing
  | cons hs hss => exact (visitStmt_mirrors hc around hs).seq (visitStmts_mirrors hc around hss)
termination_by structural ss

theorem visitRoutine_mirrors (hc : Apart c held) (around : Surroundings) {d d' : FunctionDecl}
    (h : d.Like c d') : Mirrors c held (visitRoutine around d) (visitRoutine around d') := by
  cases h with
  | mk hn hps hb =>
    have body := (visitStmts_mirrors hc around hb).seq .closeScope
    exact (Mirrors.openScope ∅).seq ((declareParams_mirrors hps).seq body)
termination_by structural d

theorem visitMethods_mirrors (hc : Apart c held) (around : Surroundings) {ds ds' : List FunctionDecl}
    (h : List.Forall₂ (Routine.Like c) ds ds') :
    Mirrors c held (visitMethods around ds) (visitMethods around ds') := by
  cases h with
  | nil => exact .nothing
  | cons hd hds =>
    rw [visitMethods, visitMethods, methodRoutine, methodRoutine, hd.name.text]
    exact (visitRoutine_mirrors hc _ hd).seq (visitMethods_mirrors hc around hds)
termination_by structural ds

theorem visitStatics_mirrors (hc : Apart c held) (around : Surroundings) {ds ds' : List FunctionDecl}
    (h : List.Forall₂ (Routine.Like c) ds ds') :
    Mirrors c held (visitStatics around ds) (visitStatics around ds') := by
  cases h with
  | nil => exact .nothing
  | cons hd hds =>
    have rest := (visitRoutine_mirrors hc { around with routine := .staticMethod } hd).seq
      (visitStatics_mirrors hc around hds)
    rw [visitStatics, visitStatics, hd.name.text]
    exact .check (.report hd.name.line _ _) rest
termination_by structural ds

end

/-- Like texts have like problems, and corresponding nodes get the same distances. -/
theorem ofStatements_like (hc : Apart c held) {ss ss' : List Stmt} (h : List.Forall₂ (Stmt.Like c) ss ss')
    {known known' : Distances} (hk : ∀ {id id'}, held id id' → known'[id']? = known[id]?) :
    (ofStatements known ss).Like c held (ofStatements known' ss') :=
  visitStmts_mirrors hc .outermost h _ _ ⟨rfl, hk, .nil⟩

end Analysis

end Scriptlet
