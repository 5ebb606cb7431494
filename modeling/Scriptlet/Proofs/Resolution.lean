import Scriptlet.Proofs.AnalysisMoves

/-!
# The analysis finds the lexical scopes

If the analysis of a text finds no problem, then it has recorded for every use of a name how many regions lie
between the use and the nearest region that declares the name. No name is read in its own initializer, and no
region declares a name twice.
-/
namespace Scriptlet

namespace Analysis

theorem problems_of_report (line : Nat) (lexeme : String) (problem : ScopeError) (st : State) :
    (exec (report line lexeme problem) st).problems ≠ [] := by
  rw [exec_report]
  exact List.append_ne_nil_of_right_ne_nil _ (List.cons_ne_nil _ _)

/-- A name that is declared without a problem was not declared before. -/
theorem fresh_of_declare {name : Name} {st : State} (h : (exec (declare name) st).problems = []) :
    headMark? name.text st.scopes = none := by
  rw [exec_declare] at h
  by_cases hm : (headMark? name.text st.scopes).isSome
  · rw [if_pos hm] at h
    exact absurd h (problems_of_report _ _ _ _)
  · rwa [Bool.not_eq_true, Option.isSome_eq_false_iff, Option.isNone_iff_eq_none] at hm

theorem distance_of_bind {node : NodeId} {name : String} {st : State} (h : st.distances[node]? = none) :
    (exec (bind node name) st).distances[node]? = distance? name st.scopes := by
  rw [exec_bind]
  split
  · next d hd =>
    rw [hd]
    exact Std.TreeMap.getElem?_insert_self
  · next hd => rw [hd, h]

/-- A variable that is read without a problem is not read in its own initializer. -/
theorem defined_of_readVariable {use : Variable} {st : State}
    (h : (exec (readVariable use) st).problems = []) : headMark? use.name.text st.scopes ≠ some false := by
  intro hm
  rw [exec_readVariable, hm] at h
  exact absurd ((bind_effect _ _).problems _ h) (problems_of_report _ _ _ _)

theorem distance_of_readVariable {use : Variable} {st : State} (h : st.distances[use.id]? = none) :
    (exec (readVariable use) st).distances[use.id]? = distance? use.name.text st.scopes := by
  rw [exec_readVariable]
  split
  · exact distance_of_bind h
  · exact distance_of_bind h

theorem exec_visitStmts_append (around : Surroundings) (ss ss' : List Stmt) (st : State) :
    exec (visitStmts around (ss ++ ss')) st = exec (visitStmts around ss') (exec (visitStmts around ss) st) := by
  induction ss generalizing st with
  | nil => rfl
  | cons s ss ih => exact ih (exec (visitStmt around s) st)

/-! ## Actions in the course of an analysis -/

/-- In the course of an analysis with the outcome `D`, the action was taken with the given scopes open. It
met no problem, and `ids` are recorded by it alone; all of them are below `n`. -/
def Visited (n : NodeId) (D : Distances) (scopes : List Scope) (ids : List NodeId) (x : Analysis Unit) :
    Prop :=
  ids.Nodup ∧ ∃ st, st.scopes = scopes ∧ (exec x st).problems = [] ∧
    ∀ node ∈ ids, node < n ∧ st.distances[node]? = none ∧ D[node]? = (exec x st).distances[node]?

namespace Visited

variable {n : NodeId} {D : Distances} {scopes : List Scope} {i j : List NodeId}
  {f g : List Scope → List Scope} {x y : Analysis Unit}

theorem first (h : Visited n D scopes (i ++ j) (do x; y)) (hy : Effect j g y) : Visited n D scopes i x := by
  obtain ⟨hnodup, st, hst, hp, hids⟩ := h
  obtain ⟨hi, -, hdisjoint⟩ := List.nodup_append.1 hnodup
  refine ⟨hi, st, hst, hy.problems _ hp, fun node hn => ?_⟩
  obtain ⟨hlt, hnone, hD⟩ := hids node (List.mem_append_left _ hn)
  refine ⟨hlt, hnone, hD.trans (hy.distances (exec x st) node fun hj => ?_)⟩
  exact hdisjoint node hn node hj rfl

theorem second (h : Visited n D scopes (i ++ j) (do x; y)) (hx : Effect i f x) :
    Visited n D (f scopes) j y := by
  obtain ⟨hnodup, st, rfl, hp, hids⟩ := h
  obtain ⟨-, hj, hdisjoint⟩ := List.nodup_append.1 hnodup
  refine ⟨hj, exec x st, hx.scopes st, hp, fun node hn => ?_⟩
  obtain ⟨hlt, hnone, hD⟩ := hids node (List.mem_append_right _ hn)
  refine ⟨hlt, (hx.distances st node fun hi => ?_).trans hnone, hD⟩
  exact hdisjoint node hi node hn rfl

/-- After an action that records nothing. -/
theorem skip (h : Visited n D scopes j (do x; y)) (hx : Effect [] f x) : Visited n D (f scopes) j y :=
  second (i := []) h hx

/-- Before an action that records nothing. -/
theorem thenSkip (h : Visited n D scopes i (do x; y)) (hy : Effect [] g y) : Visited n D scopes i x := by
  rw [← List.append_nil i] at h
  exact h.first hy

/-- The first of two actions, as far as it records nothing. -/
theorem start (h : Visited n D scopes j (do x; y)) (hy : Effect j g y) : Visited n D scopes [] x :=
  first h hy

theorem not_report {line : Nat} {lexeme : String} {problem : ScopeError}
    (h : Visited n D scopes i (report line lexeme problem)) : False := by
  obtain ⟨-, st, -, hp, -⟩ := h
  exact problems_of_report line lexeme problem st hp

/-- A problem that would have been reported was not there. -/
theorem guarded {c : Prop} [Decidable c] {line : Nat} {lexeme : String} {problem : ScopeError}
    (h : Visited n D scopes j (do
      if c then report line lexeme problem
      y)) (hy : Effect j g y) : ¬c ∧ Visited n D scopes j y := by
  by_cases hc : c
  · have taken : (do
        if c then report line lexeme problem
        y : Analysis Unit) = (do report line lexeme problem; y) := if_pos hc
    rw [taken] at h
    exact (h.start hy).not_report.elim
  · have passed : (do
        if c then report line lexeme problem
        y : Analysis Unit) = y := if_neg hc
    rw [passed] at h
    exact ⟨hc, h⟩

/-- Parameters that are declared without a problem have names of their own. -/
theorem params {scope : Scope} {outer : List Scope} {params : List Name}
    (h : Visited n D (scope :: outer) [] (declareParams params)) :
    (∀ p ∈ params, scope.find? p.text = none) ∧ (params.map Name.text).Nodup := by
  induction params generalizing scope with
  | nil => exact ⟨fun _ hp => (nomatch hp), .nil⟩
  | cons p ps ih =>
    obtain ⟨-, st, hst, hp, -⟩ := h.start ((define_effect p).skip (declareParams_effect ps))
    have fresh := fresh_of_declare hp
    rw [hst, headMark?_cons] at fresh
    have later := (h.skip (declare_effect p)).skip (define_effect p)
    rw [updateHead_insert_insert] at later
    obtain ⟨unused, distinct⟩ := ih later
    have others (q : Name) (hq : q ∈ ps) : p.text ≠ q.text ∧ scope.find? q.text = none := by
      have missing := (Table.find?_insert scope p.text q.text true).symm.trans (unused q hq)
      split at missing
      · cases missing
      · next hne => exact ⟨hne, missing⟩
    refine ⟨fun q hq => ?_, List.nodup_cons.2 ⟨fun hmem => ?_, distinct⟩⟩
    · rcases List.mem_cons.1 hq with rfl | hq
      · exact fresh
      · exact (others q hq).2
    · obtain ⟨q, hq, heq⟩ := List.mem_map.1 hmem
      exact (others q hq).1 heq.symm

theorem mem_methods {around : Surroundings} {ds : List FunctionDecl} {d : FunctionDecl}
    (h : Visited n D scopes (Stmt.routinesIds ds) (visitMethods around ds)) (hd : d ∈ ds) :
    Visited n D scopes (Stmt.routineIds d)
      (visitRoutine { around with routine := methodRoutine d.name } d) := by
  induction ds with
  | nil => cases hd
  | cons d' ds ih =>
    rcases List.mem_cons.1 hd with rfl | hd
    · exact h.first (visitMethods_effect around ds)
    · exact ih (h.second (visitRoutine_effect _ d')) hd

/-- An initializer among the static methods would be a problem. -/
theorem mem_statics {around : Surroundings} {ds : List FunctionDecl} {d : FunctionDecl}
    (h : Visited n D scopes (Stmt.routinesIds ds) (visitStatics around ds)) (hd : d ∈ ds) :
    Visited n D scopes (Stmt.routineIds d) (visitRoutine { around with routine := .staticMethod } d) := by
  induction ds with
  | nil => cases hd
  | cons d' ds ih =>
    have both := (visitRoutine_effect { around with routine := .staticMethod } d').seq
      (visitStatics_effect around ds)
    have body := (h.guarded both).2
    rcases List.mem_cons.1 hd with rfl | hd
    · exact body.first (visitStatics_effect around ds)
    · exact ih (body.second (visitRoutine_effect _ d')) hd

end Visited

/-- The distance of a use is that to the nearest region which declares its name; what is read is not its own
initializer, and `this` and `super` stand where they may. -/
structure Finds (n : NodeId) (D : Distances) (around : Surroundings) (scopes : List Scope) (u : Use) :
    Prop where
  bound : u.id < n
  distance : D[u.id]? = distance? u.name scopes
  defined : u.access ≠ .assign → headMark? u.name scopes ≠ some false
  this : u.access = .keyword → u.name = thisName → thisProblem? around = none
  super : u.access = .keyword → u.name = superName → superProblem? around = none

theorem distance_of_visited {n : NodeId} {D : Distances} {scopes : List Scope} {id : NodeId} {name : String}
    (h : Visited n D scopes [id] (bind id name)) : id < n ∧ D[id]? = distance? name scopes := by
  obtain ⟨-, st, rfl, -, hids⟩ := h
  obtain ⟨hlt, hnone, hD⟩ := hids id (List.mem_singleton_self _)
  exact ⟨hlt, hD.trans (distance_of_bind hnone)⟩

theorem finds_of_readVariable {n : NodeId} {D : Distances} {around : Surroundings} {scopes : List Scope}
    {use : Variable} (h : Visited n D scopes [use.id] (readVariable use)) :
    Finds n D around scopes use.reading := by
  obtain ⟨-, st, rfl, hp, hids⟩ := h
  obtain ⟨hlt, hnone, hD⟩ := hids use.id (List.mem_singleton_self _)
  exact ⟨hlt, hD.trans (distance_of_readVariable hnone), fun _ => defined_of_readVariable hp, nofun, nofun⟩

/-- The uses in two expressions that are visited one after the other. -/
theorem finds_of_seq {n : NodeId} {D : Distances} {around : Surroundings} {scopes : List Scope}
    {a b : List Use} {x y : Analysis Unit} (h : Visited n D scopes (Use.ids (a ++ b)) (do x; y))
    (hx : Effect (Use.ids a) id x) (hy : Effect (Use.ids b) id y)
    (ha : Visited n D scopes (Use.ids a) x → ∀ u ∈ a, Finds n D around scopes u)
    (hb : Visited n D scopes (Use.ids b) y → ∀ u ∈ b, Finds n D around scopes u) :
    ∀ u ∈ a ++ b, Finds n D around scopes u := by
  rw [Use.ids, List.map_append] at h
  intro u hu
  rcases List.mem_append.1 hu with hu | hu
  · exact ha (h.first hy) u hu
  · exact hb (h.second hx) u hu

theorem thisName_ne_superName : thisName ≠ superName := by decide

/-- Keywords are not announced in the innermost scope. -/
def KeywordsDefined (scopes : List Scope) : Prop := ∀ k : Keyword, headMark? k.text scopes ≠ some false

mutual

theorem finds_of_visitExpr {n : NodeId} {D : Distances} {scopes : List Scope} {around : Surroundings}
    (hk : KeywordsDefined scopes) (e : Expr) (h : Visited n D scopes e.ids (visitExpr around e)) :
    ∀ u ∈ e.uses, Finds n D around scopes u := by
  match e with
  | .literal _ => exact fun _ hu => nomatch hu
  | .group e => exact finds_of_visitExpr hk e h
  | .unary _ _ e => exact finds_of_visitExpr hk e h
  | .binary l _ _ r | .logical l _ _ r =>
    exact finds_of_seq h (visitExpr_effect around l) (visitExpr_effect around r)
      (finds_of_visitExpr hk l) (finds_of_visitExpr hk r)
  | .variable use =>
    intro u hu
    rw [List.mem_singleton.1 hu]
    exact finds_of_readVariable h
  | .assign target e =>
    refine finds_of_seq h (visitExpr_effect around e) (bind_effect target.id target.name.text)
      (finds_of_visitExpr hk e) fun ht u hu => ?_
    rw [List.mem_singleton.1 hu]
    obtain ⟨hlt, hD⟩ := distance_of_visited ht
    exact ⟨hlt, hD, fun hr => absurd rfl hr, nofun, nofun⟩
  | .this node line =>
    intro u hu
    rw [List.mem_singleton.1 hu]
    unfold visitExpr at h
    split at h
    · exact h.not_report.elim
    · next hnone =>
      obtain ⟨hlt, hD⟩ := distance_of_visited h
      exact ⟨hlt, hD, fun _ => hk .this, fun _ _ => hnone, fun _ heq => absurd heq thisName_ne_superName⟩
  | .super node line _ =>
    intro u hu
    rw [List.mem_singleton.1 hu]
    unfold visitExpr at h
    split at h
    · exact h.not_report.elim
    · next hnone =>
      obtain ⟨hlt, hD⟩ := distance_of_visited h
      exact ⟨hlt, hD, fun _ => hk .super, fun _ heq => absurd heq.symm thisName_ne_superName, fun _ _ => hnone⟩
  | .call f _ args =>
    exact finds_of_seq h (visitExpr_effect around f) (visitExprs_effect around args)
      (finds_of_visitExpr hk f) (finds_of_visitExprs hk args)
  | .get o _ => exact finds_of_visitExpr hk o h
  | .set o _ e =>
    exact finds_of_seq h (visitExpr_effect around e) (visitExpr_effect around o)
      (finds_of_visitExpr hk e) (finds_of_visitExpr hk o)
  | .array es => exact finds_of_visitExprs hk es h

theorem finds_of_visitExprs {n : NodeId} {D : Distances} {scopes : List Scope} {around : Surroundings}
    (hk : KeywordsDefined scopes) (es : List Expr)
    (h : Visited n D scopes (Use.ids (Expr.listUses es)) (visitExprs around es)) :
    ∀ u ∈ Expr.listUses es, Finds n D around scopes u := by
  match es with
  | [] => exact fun _ hu => nomatch hu
  | e :: es =>
    exact finds_of_seq h (visitExpr_effect around e) (visitExprs_effect around es)
      (finds_of_visitExpr hk e) (finds_of_visitExprs hk es)

end

theorem finds_of_visitOptional {n : NodeId} {D : Distances} {scopes : List Scope} {around : Surroundings}
    (hk : KeywordsDefined scopes) (e : Option Expr)
    (h : Visited n D scopes (Expr.optionIds e) (visitOptional around e)) :
    ∀ u ∈ Expr.optionUses e, Finds n D around scopes u := by
  cases e with
  | none => exact fun _ hu => nomatch hu
  | some e => exact finds_of_visitExpr hk e h

end Analysis

end Scriptlet
