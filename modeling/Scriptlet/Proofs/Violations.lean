import Scriptlet.Proofs.Resolution

/-!
# The problems that the analysis reports

A text breaks a rule on names, `return`, `this` or `super` at certain places. They are told by what stands
around them and by the names declared before them, without a walk that keeps a state. The analysis reports
exactly these places, each of them once and in the order of the text, and goes on behind a text as it began.
-/
namespace Scriptlet

/-! ## Places where a rule may be broken -/

/-- What stands around a part of a text. -/
inductive Enclosure where
  | block
  | function
  | method (name : String)
  | staticMethod
  | classBody (hasSuperclass : Bool)
  /-- The initial value of a variable. -/
  | initializer (name : String)
  deriving DecidableEq, Repr

namespace Enclosure

def isRoutine : Enclosure → Bool
  | .function | .method _ | .staticMethod => true
  | .block | .classBody _ | .initializer _ => false

/-- The names declared in it are not known outside. -/
def isScope (e : Enclosure) : Bool := e == .block || e.isRoutine

def superclass? : Enclosure → Option Bool
  | .classBody hasSuperclass => some hasSuperclass
  | _ => none

/-- Whether some scope is around; outside of all scopes names are global. -/
def isLocal (around : List Enclosure) : Bool := around.any isScope

/-- The nearest function, method or static method. -/
def routine? (around : List Enclosure) : Option Enclosure := around.find? isRoutine

/-- Whether the nearest class has a superclass. -/
def derived? (around : List Enclosure) : Option Bool := around.findSome? superclass?

end Enclosure

/-- What a rule is about. -/
inductive Construct where
  /-- A declaration, with the names declared before it in the same scope. -/
  | declares (name : Name) (earlier : List String)
  | reads (name : Name)
  | usesThis (line : Nat)
  | usesSuper (line : Nat)
  | returns (line : Nat) (hasValue : Bool)
  | inherits (name parent : Name)
  | hasStatic (name : Name)

/-- A construct and what stands around it, innermost first. -/
structure Site where
  construct : Construct
  around : List Enclosure

namespace Site

open Enclosure (isLocal routine? derived?)

/-- The rules. -/
def Violates (site : Site) : Prop :=
  match site.construct with
  | .declares name earlier => isLocal site.around ∧ name.text ∈ earlier
  | .reads name => isLocal site.around ∧ .initializer name.text ∈ site.around
  | .usesThis _ => derived? site.around = none ∨ routine? site.around = some .staticMethod
  | .usesSuper _ =>
    derived? site.around = none ∨ derived? site.around = some false ∨
      routine? site.around = some .staticMethod
  | .returns _ hasValue =>
    routine? site.around = none ∨ hasValue ∧ routine? site.around = some (.method initName)
  | .inherits name parent => parent.text = name.text
  | .hasStatic name => name.text = initName

instance : DecidablePred Violates
  | ⟨.declares .., _⟩ | ⟨.reads _, _⟩ => inferInstanceAs (Decidable (_ ∧ _))
  | ⟨.usesThis _, _⟩ | ⟨.usesSuper _, _⟩ | ⟨.returns .., _⟩ => inferInstanceAs (Decidable (_ ∨ _))
  | ⟨.inherits .., _⟩ | ⟨.hasStatic _, _⟩ => inferInstanceAs (Decidable (_ = _))

/-- What is said where a rule is broken. -/
def diagnosis (site : Site) : Located ScopeError :=
  match site.construct with
  | .declares name _ => ⟨name.line, .atLexeme name.text, .alreadyDeclared name.text⟩
  | .reads name => ⟨name.line, .atLexeme name.text, .ownInitializer⟩
  | .usesThis line =>
    ⟨line, .atLexeme thisName, if derived? site.around = none then .thisOutsideClass else .thisInStatic⟩
  | .usesSuper line =>
    ⟨line, .atLexeme superName,
      match derived? site.around with
      | none => .superOutsideClass
      | some false => .superWithoutSuperclass
      | some true => .superInStatic⟩
  | .returns line _ =>
    ⟨line, .atLexeme "return",
      if routine? site.around = none then .returnOutsideFunction else .returnFromInitializer⟩
  | .inherits _ parent => ⟨parent.line, .atLexeme parent.text, .selfInheritance⟩
  | .hasStatic name => ⟨name.line, .atLexeme name.text, .staticInitializer⟩

end Site

namespace Expr

mutual

/-- The sites in an expression, those of an assigned value before its target. -/
def sites (around : List Enclosure) : Expr → List Site
  | .literal _ => []
  | .group e => sites around e
  | .unary _ _ e => sites around e
  | .binary l _ _ r => sites around l ++ sites around r
  | .logical l _ _ r => sites around l ++ sites around r
  | .variable use => [⟨.reads use.name, around⟩]
  | .assign _ e => sites around e
  | .this _ line => [⟨.usesThis line, around⟩]
  | .super _ line _ => [⟨.usesSuper line, around⟩]
  | .call f _ args => sites around f ++ listSites around args
  | .get o _ => sites around o
  | .set o _ e => sites around e ++ sites around o
  | .array es => listSites around es

def listSites (around : List Enclosure) : List Expr → List Site
  | [] => []
  | e :: es => sites around e ++ listSites around es

end

def optionSites (around : List Enclosure) : Option Expr → List Site
  | none => []
  | some e => e.sites around

end Expr

namespace Stmt

/-- The names that a statement declares in the scope it stands in, itself or in a branch. -/
def declaredNames : Stmt → List String
  | .ifThen _ t => t.declaredNames
  | .ifElse _ t e => t.declaredNames ++ e.declaredNames
  | .whileLoop _ body _ => body.declaredNames
  | .doWhile body _ => body.declaredNames
  | .letDecl name _ | .constDecl name _ | .classDecl name .. => [name.text]
  | .function d => [d.name.text]
  | .expression _ | .print _ | .block _ | .returnValue .. | .breakLoop _ | .continueLoop _ | .importFile .. => []

/-- The parameters of a routine, each with the ones before it. -/
def paramSites (around : List Enclosure) (earlier : List String) : List Name → List Site
  | [] => []
  | p :: ps => ⟨.declares p earlier, around⟩ :: paramSites around (earlier ++ [p.text]) ps

def superclassSites (around : List Enclosure) (name : Name) : Option Variable → List Site
  | none => []
  | some parent => [⟨.inherits name parent.name, around⟩, ⟨.reads parent.name, around⟩]

mutual

/-- The sites in a statement that stands behind declarations of the names `earlier` of its scope. -/
def sites (around : List Enclosure) (earlier : List String) : Stmt → List Site
  | .expression e => e.sites around
  | .print e => e.sites around
  | .letDecl name init =>
    ⟨.declares name earlier, around⟩ :: Expr.optionSites (.initializer name.text :: around) init
  | .constDecl name init => ⟨.declares name earlier, around⟩ :: init.sites (.initializer name.text :: around)
  | .block body => listSites (.block :: around) [] body
  | .ifThen c t => c.sites around ++ sites around earlier t
  | .ifElse c t e => c.sites around ++ (sites around earlier t ++ sites around (earlier ++ t.declaredNames) e)
  | .whileLoop c body inc => c.sites around ++ (sites around earlier body ++ Expr.optionSites around inc)
  | .doWhile body c => sites around earlier body ++ c.sites around
  | .function d => ⟨.declares d.name earlier, around⟩ :: routineSites (.function :: around) d
  | .classDecl name superclass methods statics =>
    let inside := .classBody superclass.isSome :: around
    ⟨.declares name earlier, around⟩ :: (superclassSites around name superclass ++
      (methodSites inside methods ++ staticSites inside statics))
  | .returnValue line value => ⟨.returns line value.isSome, around⟩ :: Expr.optionSites around value
  | .breakLoop _ | .continueLoop _ | .importFile .. => []

def listSites (around : List Enclosure) (earlier : List String) : List Stmt → List Site
  | [] => []
  | s :: ss => sites around earlier s ++ listSites around (earlier ++ s.declaredNames) ss

/-- Parameters and body share one scope. -/
def routineSites (around : List Enclosure) : FunctionDecl → List Site
  | ⟨_, params, body⟩ => paramSites around [] params ++ listSites around (params.map Name.text) body

def methodSites (around : List Enclosure) : List FunctionDecl → List Site
  | [] => []
  | d :: ds => routineSites (.method d.name.text :: around) d ++ methodSites around ds

def staticSites (around : List Enclosure) : List FunctionDecl → List Site
  | [] => []
  | d :: ds =>
    ⟨.hasStatic d.name, around⟩ :: (routineSites (.staticMethod :: around) d ++ staticSites around ds)

end

end Stmt

/-- What is said about some sites: one diagnosis for each violation. -/
def Site.diagnoses (sites : List Site) : List (Located ScopeError) := (sites.filter (·.Violates)).map diagnosis

theorem Site.diagnoses_append (sites sites' : List Site) :
    diagnoses (sites ++ sites') = diagnoses sites ++ diagnoses sites' := by
  simp only [diagnoses, List.filter_append, List.map_append]

theorem Site.diagnoses_cons (site : Site) (sites : List Site) :
    diagnoses (site :: sites) = diagnoses [site] ++ diagnoses sites :=
  diagnoses_append [site] sites

theorem Site.diagnoses_singleton (site : Site) :
    diagnoses [site] = if site.Violates then [site.diagnosis] else [] := by
  unfold diagnoses
  by_cases h : site.Violates <;> simp [h]

namespace Analysis

open Enclosure (isLocal routine? derived?)
open Site (diagnoses)

/-! ## What an action reports -/

/-- With the scopes `before` the action reports `found`, and it leaves the scopes `after`. -/
def Reports (x : Analysis Unit) (before after : List Scope) (found : List (Located ScopeError)) : Prop :=
  ∀ st : State, st.scopes = before →
    (exec x st).scopes = after ∧ (exec x st).problems = st.problems ++ found

namespace Reports

variable {x y : Analysis Unit} {before between after : List Scope} {found more : List (Located ScopeError)}

theorem nothing : Reports (return ()) before before [] := fun _ h => ⟨h, (List.append_nil _).symm⟩

theorem seq (hx : Reports x before between found) (hy : Reports y between after more) :
    Reports (do x; y) before after (found ++ more) := by
  intro st hst
  obtain ⟨hs, hp⟩ := hx st hst
  obtain ⟨hs', hp'⟩ := hy (exec x st) hs
  exact ⟨hs', hp'.trans (by rw [hp, List.append_assoc])⟩

/-- Before an action that reports nothing. -/
theorem thenQuiet (hx : Reports x before between found) (hy : Reports y between after []) :
    Reports (do x; y) before after found := by
  have h := hx.seq hy
  rwa [List.append_nil] at h

theorem quiet {f : List Scope → List Scope} (hs : ∀ st, (exec x st).scopes = f st.scopes)
    (hp : ∀ st, (exec x st).problems = st.problems) (before : List Scope) :
    Reports x before (f before) [] :=
  fun st h => ⟨h ▸ hs st, (hp st).trans (List.append_nil _).symm⟩

theorem openScope (scope : Scope) : Reports (openScope scope) before (scope :: before) [] :=
  quiet (fun _ => rfl) (fun _ => rfl) before

theorem closeScope (scope : Scope) : Reports closeScope (scope :: before) before [] :=
  quiet (f := List.tail) (fun _ => rfl) (fun _ => rfl) (scope :: before)

theorem updateScope (f : Scope → Scope) : Reports (updateScope f) before (updateHead f before) [] :=
  quiet (fun st => by rw [exec_updateScope]) (fun st => by rw [exec_updateScope]) before

theorem bind (node : NodeId) (name : String) : Reports (bind node name) before before [] :=
  quiet (f := id) (bind_effect node name).scopes (fun st => by rw [exec_bind]; split <;> rfl) before

/-- The check of a rule that is broken if and only if the site violates it. -/
theorem rule {c : Prop} [Decidable c] (site : Site) {line : Nat} {lexeme : String} {problem : ScopeError}
    (hc : c ↔ site.Violates) (hd : c → site.diagnosis = ⟨line, .atLexeme lexeme, problem⟩) :
    Reports (if c then report line lexeme problem else return ()) before before (diagnoses [site]) := by
  rw [Site.diagnoses_singleton]
  by_cases h : c
  · rw [if_pos h, if_pos (hc.1 h), hd h]
    exact fun _ hst => ⟨hst, rfl⟩
  · rw [if_neg h, if_neg fun hv => h (hc.2 hv)]
    exact nothing

theorem ruleThen {c : Prop} [Decidable c] (site : Site) {line : Nat} {lexeme : String} {problem : ScopeError}
    (hc : c ↔ site.Violates) (hd : c → site.diagnosis = ⟨line, .atLexeme lexeme, problem⟩)
    (hy : Reports y before after more) :
    Reports (if c then do report line lexeme problem; y else y) before after (diagnoses [site] ++ more) := by
  have h := (rule site hc hd).seq hy
  by_cases hc : c
  · rw [if_pos hc] at h ⊢
    exact h
  · rw [if_neg hc] at h ⊢
    exact h

end Reports

/-! ## The state of the analysis at a site -/

/-- The role of a routine. -/
def roleOf : Enclosure → RoutineKind
  | .function => .function
  | .method name => if name = initName then .initializer else .method
  | .staticMethod => .staticMethod
  | .block | .classBody _ | .initializer _ => .none

/-- The routine and the class that the analysis has noted within some enclosures. -/
def surroundingsOf (around : List Enclosure) : Surroundings where
  routine := (routine? around).elim .none roleOf
  classKind := (derived? around).elim .none fun hasSuperclass => if hasSuperclass then .derived else .base

theorem roleOf_routine {around : List Enclosure} {e : Enclosure} (h : routine? around = some e) :
    roleOf e ≠ .none ∧ (roleOf e = .staticMethod ↔ e = .staticMethod) ∧
      (roleOf e = .initializer ↔ e = .method initName) := by
  have he : e.isRoutine = true := List.find?_some h
  cases e with
  | function => decide
  | method name =>
    by_cases hn : name = initName <;> simp [roleOf, hn]
  | staticMethod => decide
  | block | classBody | initializer => cases he

theorem routine_eq (around : List Enclosure) :
    ((surroundingsOf around).routine = .none ↔ routine? around = none) ∧
      ((surroundingsOf around).routine = .staticMethod ↔ routine? around = some .staticMethod) ∧
      ((surroundingsOf around).routine = .initializer ↔ routine? around = some (.method initName)) := by
  unfold surroundingsOf
  cases h : routine? around with
  | none => simp
  | some e => simp [roleOf_routine h]

/-- The site breaks the rule that is checked there. -/
theorem thisProblem?_eq (around : List Enclosure) (line : Nat) :
    let site : Site := ⟨.usesThis line, around⟩
    thisProblem? (surroundingsOf around) = if site.Violates then some site.diagnosis.problem else none := by
  simp only [thisProblem?, Site.Violates, Site.diagnosis, routine_eq]
  obtain h | ⟨hasSuperclass, h⟩ := Option.eq_none_or_eq_some (derived? around)
  · simp [surroundingsOf, h]
  · cases hasSuperclass <;> simp [surroundingsOf, h]

theorem superProblem?_eq (around : List Enclosure) (line : Nat) :
    let site : Site := ⟨.usesSuper line, around⟩
    superProblem? (surroundingsOf around) = if site.Violates then some site.diagnosis.problem else none := by
  simp only [superProblem?, Site.Violates, Site.diagnosis, routine_eq]
  obtain h | ⟨hasSuperclass, h⟩ := Option.eq_none_or_eq_some (derived? around)
  · simp [surroundingsOf, h]
  · cases hasSuperclass <;> simp [surroundingsOf, h]

/-- The innermost scope marks exactly the name whose initial value is being read. -/
def Marks (around : List Enclosure) (scopes : List Scope) : Prop :=
  ∀ name, headMark? name scopes = some false ↔ isLocal around ∧ .initializer name ∈ around

/-- The scopes are open and know the names `earlier` of the innermost one, at a place that is not in an initial
value. -/
structure Stands (around : List Enclosure) (earlier : List String) (scopes : List Scope) : Prop where
  opened : scopes = [] ↔ isLocal around = false
  known (name : String) : headMark? name scopes = if isLocal around ∧ name ∈ earlier then some true else none
  settled (name : String) : .initializer name ∉ around

/-- The innermost scope knows the names. -/
def bindAll (names : List String) : List Scope → List Scope :=
  updateHead fun scope => names.foldl (fun scope name => scope.insert name true) scope

theorem bindAll_nil (scopes : List Scope) : bindAll [] scopes = scopes := by
  cases scopes <;> rfl

theorem bindAll_append (names names' : List String) (scopes : List Scope) :
    bindAll (names ++ names') scopes = bindAll names' (bindAll names scopes) := by
  cases scopes with
  | nil => rfl
  | cons scope outer => exact congrArg (· :: outer) (List.foldl_append ..)

namespace Stands

variable {around : List Enclosure} {earlier : List String} {scopes : List Scope}

/-- Outside of initial values no name is marked as being read. -/
theorem marks (h : Stands around earlier scopes) : Marks around scopes := by
  intro name
  rw [h.known]
  refine ⟨fun hf => ?_, fun ⟨_, hi⟩ => absurd hi (h.settled name)⟩
  split at hf
  · cases hf
  · cases hf

/-- Behind the declaration of a name. -/
theorem declared (h : Stands around earlier scopes) (name : String) :
    Stands around (earlier ++ [name]) (bindAll [name] scopes) where
  opened := by
    rw [← h.opened]
    cases scopes <;> simp [bindAll, updateHead]
  known other := by
    have ho := h.opened
    have hk := h.known other
    cases scopes with
    | nil =>
      have hl := ho.1 rfl
      simp [bindAll, updateHead, headMark?, hl]
    | cons scope outer =>
      have hl : isLocal around = true := by simpa using ho
      rw [headMark?_cons] at hk
      simp only [hl, true_and] at hk ⊢
      by_cases hn : name = other
      · simp [bindAll, updateHead, headMark?, hn]
      · simp [bindAll, updateHead, headMark?, hn, hk, Ne.symm hn]
  settled := h.settled

theorem declaredAll (h : Stands around earlier scopes) (names : List String) :
    Stands around (earlier ++ names) (bindAll names scopes) := by
  induction names generalizing earlier scopes with
  | nil => rwa [List.append_nil, bindAll_nil]
  | cons name names ih =>
    have h := ih (h.declared name)
    rwa [List.append_assoc, ← bindAll_append] at h

/-- In the initial value of a name. -/
theorem initializing (h : Stands around earlier scopes) (name : String) :
    Marks (.initializer name :: around) (updateHead (·.insert name false) scopes) := by
  intro other
  have hl : isLocal (.initializer name :: around) = isLocal around := rfl
  have ho := h.opened
  have hk := h.known other
  have hm : .initializer other ∈ .initializer name :: around ↔ name = other := by
    simp [h.settled, eq_comm]
  rw [hl, hm]
  cases scopes with
  | nil =>
    have hl := ho.1 rfl
    simp [updateHead, headMark?, hl]
  | cons scope outer =>
    have hl : isLocal around = true := by simpa using ho
    rw [headMark?_cons] at hk
    by_cases hn : name = other
    · simp [updateHead, headMark?, hn, hl]
    · simp only [updateHead, headMark?_cons, Table.find?_insert, hn, if_false, hk]
      split <;> simp

/-- At the beginning of a scope. -/
theorem enter {e : Enclosure} (he : e.isScope = true) (hs : ∀ name, .initializer name ∉ around)
    (outer : List Scope) : Stands (e :: around) [] (∅ :: outer) where
  opened := by
    have h : isLocal (e :: around) = true := by simp [isLocal, he]
    simp [h]
  known name := by simp [headMark?_cons]; rfl
  settled name := by
    rw [List.mem_cons, not_or]
    refine ⟨?_, hs name⟩
    rintro rfl
    cases he

end Stands

/-! ## Expressions -/

theorem readVariable_reports {around : List Enclosure} {scopes : List Scope} (h : Marks around scopes)
    (use : Variable) :
    Reports (readVariable use) scopes scopes (diagnoses [⟨.reads use.name, around⟩]) := by
  intro st hst
  rw [exec_readVariable, hst]
  have marked : headMark? use.name.text scopes == some false ↔ (⟨.reads use.name, around⟩ : Site).Violates := by
    rw [beq_iff_eq]
    exact h use.name.text
  exact (Reports.rule _ marked fun _ => rfl).thenQuiet (.bind use.id use.name.text) st hst

theorem this_reports (around : List Enclosure) (node : NodeId) (line : Nat) (scopes : List Scope) :
    Reports (visitExpr (surroundingsOf around) (.this node line)) scopes scopes
      (diagnoses [⟨.usesThis line, around⟩]) := by
  unfold visitExpr
  rw [thisProblem?_eq around line, Site.diagnoses_singleton]
  by_cases hv : (⟨.usesThis line, around⟩ : Site).Violates
  · rw [if_pos hv, if_pos hv]
    exact fun _ h => ⟨h, rfl⟩
  · rw [if_neg hv, if_neg hv]
    exact .bind node thisName

theorem super_reports (around : List Enclosure) (node : NodeId) (line : Nat) (method : Name)
    (scopes : List Scope) :
    Reports (visitExpr (surroundingsOf around) (.super node line method)) scopes scopes
      (diagnoses [⟨.usesSuper line, around⟩]) := by
  unfold visitExpr
  rw [superProblem?_eq around line, Site.diagnoses_singleton]
  by_cases hv : (⟨.usesSuper line, around⟩ : Site).Violates
  · rw [if_pos hv, if_pos hv]
    exact fun _ h => ⟨h, rfl⟩
  · rw [if_neg hv, if_neg hv]
    exact .bind node superName

mutual

theorem visitExpr_reports {around : List Enclosure} {scopes : List Scope} (h : Marks around scopes) (e : Expr) :
    Reports (visitExpr (surroundingsOf around) e) scopes scopes (diagnoses (e.sites around)) := by
  match e with
  | .literal _ => exact .nothing
  | .group e => exact visitExpr_reports h e
  | .unary _ _ e => exact visitExpr_reports h e
  | .binary l _ _ r =>
    rw [Expr.sites, Site.diagnoses_append]
    exact (visitExpr_reports h l).seq (visitExpr_reports h r)
  | .logical l _ _ r =>
    rw [Expr.sites, Site.diagnoses_append]
    exact (visitExpr_reports h l).seq (visitExpr_reports h r)
  | .variable use => exact readVariable_reports h use
  | .assign target e => exact (visitExpr_reports h e).thenQuiet (.bind target.id target.name.text)
  | .this node line => exact this_reports around node line scopes
  | .super node line method => exact super_reports around node line method scopes
  | .call f _ args =>
    rw [Expr.sites, Site.diagnoses_append]
    exact (visitExpr_reports h f).seq (visitExprs_reports h args)
  | .get o _ => exact visitExpr_reports h o
  | .set o _ e =>
    rw [Expr.sites, Site.diagnoses_append]
    exact (visitExpr_reports h e).seq (visitExpr_reports h o)
  | .array es => exact visitExprs_reports h es

theorem visitExprs_reports {around : List Enclosure} {scopes : List Scope} (h : Marks around scopes)
    (es : List Expr) :
    Reports (visitExprs (surroundingsOf around) es) scopes scopes (diagnoses (Expr.listSites around es)) := by
  match es with
  | [] => exact .nothing
  | e :: es =>
    rw [Expr.listSites, Site.diagnoses_append]
    exact (visitExpr_reports h e).seq (visitExprs_reports h es)

end

theorem visitOptional_reports {around : List Enclosure} {scopes : List Scope} (h : Marks around scopes)
    (e : Option Expr) :
    Reports (visitOptional (surroundingsOf around) e) scopes scopes (diagnoses (Expr.optionSites around e)) := by
  cases e with
  | none => exact .nothing
  | some e => exact visitExpr_reports h e

/-! ## Statements -/

section

variable {around : List Enclosure} {earlier : List String} {scopes : List Scope}

theorem declare_reports (h : Stands around earlier scopes) (name : Name) :
    Reports (declare name) scopes (updateHead (·.insert name.text false) scopes)
      (diagnoses [⟨.declares name earlier, around⟩]) := by
  have known : (headMark? name.text scopes).isSome ↔ (⟨.declares name earlier, around⟩ : Site).Violates := by
    rw [h.known]
    show _ ↔ isLocal around ∧ name.text ∈ earlier
    split <;> simp [*]
  intro st hst
  rw [exec_declare, hst]
  exact ((Reports.updateScope _).seq (.rule _ known fun _ => rfl)) st hst

theorem bindAll_singleton (name : String) (scopes : List Scope) :
    bindAll [name] scopes = updateHead (·.insert name true) scopes := by
  cases scopes <;> rfl

/-- A name with its initial value. -/
theorem variable_reports (h : Stands around earlier scopes) (name : Name) {x : Analysis Unit} {sites : List Site}
    (hx : ∀ scopes', Marks (.initializer name.text :: around) scopes' →
      Reports x scopes' scopes' (diagnoses sites)) :
    Reports (do declare name; x; define name) scopes (bindAll [name.text] scopes)
      (diagnoses (⟨.declares name earlier, around⟩ :: sites)) := by
  have hd := (declare_reports h name).seq
    ((hx _ (h.initializing name.text)).thenQuiet (.updateScope (·.insert name.text true)))
  rw [updateHead_insert_insert] at hd
  rwa [bindAll_singleton, Site.diagnoses_cons]

/-- A name without one. -/
theorem name_reports (h : Stands around earlier scopes) (name : Name) :
    Reports (do declare name; define name) scopes (bindAll [name.text] scopes)
      (diagnoses [⟨.declares name earlier, around⟩]) := by
  have hd := (declare_reports h name).thenQuiet (.updateScope (·.insert name.text true))
  rw [updateHead_insert_insert] at hd
  rwa [bindAll_singleton]

theorem declareParams_reports (h : Stands around earlier scopes) (params : List Name) :
    Reports (declareParams params) scopes (bindAll (params.map Name.text) scopes)
      (diagnoses (Stmt.paramSites around earlier params)) := by
  induction params generalizing earlier scopes with
  | nil =>
    rw [List.map_nil, bindAll_nil]
    exact .nothing
  | cons p ps ih =>
    rw [Stmt.paramSites, Site.diagnoses_cons]
    have hp := (name_reports h p).seq (ih (h.declared p.text))
    rwa [← bindAll_append] at hp

/-- A `return` breaks one of the two rules at most. -/
theorem returnProblems_eq (around : Surroundings) (line : Nat) (value : Option Expr) :
    returnProblems around line value =
      if around.routine = .none ∨ value.isSome ∧ around.routine = .initializer then
        report line "return" (if around.routine = .none then .returnOutsideFunction else .returnFromInitializer)
      else return () := by
  unfold returnProblems
  by_cases hn : around.routine = .none
  · simp [hn]
  · by_cases hi : value.isSome ∧ around.routine = .initializer
    · simp [hi]
    · simp [hn, hi]

theorem returnProblems_reports (around : List Enclosure) (line : Nat) (value : Option Expr)
    (scopes : List Scope) :
    Reports (returnProblems (surroundingsOf around) line value) scopes scopes
      (diagnoses [⟨.returns line value.isSome, around⟩]) := by
  rw [returnProblems_eq]
  simp only [routine_eq]
  exact .rule _ Iff.rfl fun _ => rfl

theorem enterSuperclass_reports (h : Marks around scopes) (inside : Surroundings) (name : Name)
    (superclass : Option Variable) :
    Reports (enterSuperclass inside name superclass) scopes (superScopes superclass scopes)
      (diagnoses (Stmt.superclassSites around name superclass)) := by
  cases superclass with
  | none => exact .nothing
  | some parent =>
    rw [Stmt.superclassSites, Site.diagnoses_cons]
    exact .ruleThen _ Iff.rfl (fun _ => rfl) ((readVariable_reports h parent).thenQuiet (.openScope _))

theorem enterClass_reports (h : Stands around earlier scopes) (inside : Surroundings) (name : Name)
    (superclass : Option Variable) :
    Reports (enterClass inside name superclass) scopes
      (Table.empty.insert thisName true :: superScopes superclass (bindAll [name.text] scopes))
      (diagnoses (⟨.declares name earlier, around⟩ :: Stmt.superclassSites around name superclass)) := by
  rw [Site.diagnoses_cons]
  exact (name_reports h name).seq
    ((enterSuperclass_reports (h.declared name.text).marks inside name superclass).thenQuiet (.openScope _))

theorem leaveClass_reports (scope : Scope) (superclass : Option Variable) (scopes : List Scope) :
    Reports (leaveClass superclass) (scope :: superScopes superclass scopes) scopes [] := by
  cases superclass with
  | none => exact Reports.closeScope scope
  | some parent => exact (Reports.closeScope scope).seq (.closeScope _)

mutual

theorem visitStmt_reports {around : List Enclosure} {earlier : List String} {scopes : List Scope}
    (h : Stands around earlier scopes) (s : Stmt) :
    Reports (visitStmt (surroundingsOf around) s) scopes (bindAll s.declaredNames scopes)
      (diagnoses (s.sites around earlier)) := by
  have quiet := bindAll_nil scopes
  match s with
  | .expression e | .print e =>
    rw [Stmt.declaredNames, quiet]
    exact visitExpr_reports h.marks e
  | .letDecl name init => exact variable_reports h name fun _ hm => visitOptional_reports hm init
  | .constDecl name init => exact variable_reports h name fun _ hm => visitExpr_reports hm init
  | .block body =>
    rw [Stmt.declaredNames, quiet]
    have inside := visitStmts_reports (.enter (e := .block) rfl h.settled scopes) body
    exact (Reports.openScope ∅).seq (inside.thenQuiet (.closeScope _))
  | .ifThen c t =>
    rw [Stmt.sites, Site.diagnoses_append]
    exact (visitExpr_reports h.marks c).seq (visitStmt_reports h t)
  | .ifElse c t e =>
    rw [Stmt.sites, Site.diagnoses_append, Site.diagnoses_append, Stmt.declaredNames, bindAll_append]
    exact (visitExpr_reports h.marks c).seq
      ((visitStmt_reports h t).seq (visitStmt_reports (h.declaredAll t.declaredNames) e))
  | .whileLoop c body inc =>
    rw [Stmt.sites, Site.diagnoses_append, Site.diagnoses_append]
    exact (visitExpr_reports h.marks c).seq ((visitStmt_reports h body).seq
      (visitOptional_reports (h.declaredAll body.declaredNames).marks inc))
  | .doWhile body c =>
    rw [Stmt.sites, Site.diagnoses_append]
    exact (visitStmt_reports h body).seq (visitExpr_reports (h.declaredAll body.declaredNames).marks c)
  | .function d =>
    rw [Stmt.sites, Site.diagnoses_cons]
    exact (name_reports h d.name).seq
      (visitRoutine_reports (e := .function) rfl h.settled d (bindAll [d.name.text] scopes))
  | .classDecl name superclass methods statics =>
    have settled (n : String) : .initializer n ∉ .classBody superclass.isSome :: around := by
      simp [h.settled n]
    rw [Stmt.sites, ← List.cons_append, Site.diagnoses_append, Site.diagnoses_append]
    exact (enterClass_reports h _ name superclass).seq ((visitMethods_reports settled methods _).seq
      ((Reports.updateScope _).seq
        ((visitStatics_reports settled statics _).thenQuiet (leaveClass_reports _ superclass _))))
  | .returnValue line value =>
    rw [Stmt.declaredNames, quiet, Stmt.sites, Site.diagnoses_cons]
    exact (returnProblems_reports around line value scopes).seq (visitOptional_reports h.marks value)
  | .breakLoop _ | .continueLoop _ | .importFile .. =>
    rw [Stmt.declaredNames, quiet]
    exact .nothing

theorem visitStmts_reports {around : List Enclosure} {earlier : List String} {scopes : List Scope}
    (h : Stands around earlier scopes) (ss : List Stmt) :
    Reports (visitStmts (surroundingsOf around) ss) scopes (bindAll (ss.flatMap Stmt.declaredNames) scopes)
      (diagnoses (Stmt.listSites around earlier ss)) := by
  match ss with
  | [] =>
    rw [List.flatMap_nil, bindAll_nil]
    exact .nothing
  | s :: ss =>
    rw [Stmt.listSites, Site.diagnoses_append, List.flatMap_cons, bindAll_append]
    exact (visitStmt_reports h s).seq (visitStmts_reports (h.declaredAll s.declaredNames) ss)

theorem visitRoutine_reports {around : List Enclosure} {e : Enclosure} (he : e.isScope = true)
    (hs : ∀ name, .initializer name ∉ around) (d : FunctionDecl) (scopes : List Scope) :
    Reports (visitRoutine (surroundingsOf (e :: around)) d) scopes scopes
      (diagnoses (Stmt.routineSites (e :: around) d)) := by
  match d with
  | ⟨_, params, body⟩ =>
    have start := Stands.enter he hs scopes
    have inside := (declareParams_reports start params).seq
      (visitStmts_reports (start.declaredAll (params.map Name.text)) body)
    rw [Stmt.routineSites, Site.diagnoses_append]
    exact (Reports.openScope ∅).seq (inside.thenQuiet (.closeScope _))

theorem visitMethods_reports {around : List Enclosure} (hs : ∀ name, .initializer name ∉ around)
    (ds : List FunctionDecl) (scopes : List Scope) :
    Reports (visitMethods (surroundingsOf around) ds) scopes scopes (diagnoses (Stmt.methodSites around ds)) := by
  match ds with
  | [] => exact .nothing
  | d :: ds =>
    rw [Stmt.methodSites, Site.diagnoses_append]
    exact (visitRoutine_reports (e := .method d.name.text) rfl hs d scopes).seq
      (visitMethods_reports hs ds scopes)

theorem visitStatics_reports {around : List Enclosure} (hs : ∀ name, .initializer name ∉ around)
    (ds : List FunctionDecl) (scopes : List Scope) :
    Reports (visitStatics (surroundingsOf around) ds) scopes scopes (diagnoses (Stmt.staticSites around ds)) := by
  match ds with
  | [] => exact .nothing
  | d :: ds =>
    rw [Stmt.staticSites, Site.diagnoses_cons, Site.diagnoses_append]
    exact .ruleThen _ Iff.rfl (fun _ => rfl) ((visitRoutine_reports (e := .staticMethod) rfl hs d scopes).seq
      (visitStatics_reports hs ds scopes))

end

end

/-- Outside of all enclosures no scope is open, whatever was declared before. -/
theorem stands_outermost (earlier : List String) : Stands [] earlier [] where
  opened := by decide
  known _ := by simp [headMark?, isLocal]
  settled _ := List.not_mem_nil

theorem exec_visitStmts_outermost (text : List Stmt) (distances : Distances) (problems : List (Located ScopeError)) :
    let after := exec (visitStmts .outermost text) ⟨[], distances, problems⟩
    after.scopes = [] ∧ after.problems = problems ++ diagnoses (Stmt.listSites [] [] text) :=
  visitStmts_reports (stands_outermost []) text ⟨[], distances, problems⟩ rfl

/-- The analysis of a text reports every violation of a rule once, in the order of the text, and nothing else.
Then no scope is open, and whatever follows the text is judged as if nothing stood before it. -/
theorem problems_are_violations (distances : Distances) (text : List Stmt) :
    let sites := Stmt.listSites [] [] text
    let analysis := ofStatements distances text
    analysis.problems.length = sites.countP (·.Violates) ∧
      analysis.problems = (sites.filter (·.Violates)).map Site.diagnosis ∧
      analysis.scopes = [] ∧
      ∀ more : List Stmt, (ofStatements distances (text ++ more)).scopes = [] ∧
        (ofStatements distances (text ++ more)).problems =
          analysis.problems ++ (ofStatements analysis.distances more).problems := by
  intro sites analysis
  obtain ⟨scopes, problems⟩ : analysis.scopes = [] ∧ analysis.problems = diagnoses sites :=
    exec_visitStmts_outermost text distances []
  refine ⟨?_, problems, scopes, fun more => ?_⟩
  · rw [problems, diagnoses, List.length_map, List.countP_eq_length_filter]
  · have joined : ofStatements distances (text ++ more) =
        exec (visitStmts .outermost more) ⟨[], analysis.distances, analysis.problems⟩ := by
      have h := exec_visitStmts_append .outermost text more ⟨[], distances, []⟩
      rwa [← scopes]
    obtain ⟨left, after⟩ := exec_visitStmts_outermost more analysis.distances analysis.problems
    have alone := (exec_visitStmts_outermost more analysis.distances []).2
    rw [joined]
    exact ⟨left, after.trans (congrArg (analysis.problems ++ ·) alone.symm)⟩

-- a name in its own initial value, the same name once more, and a `return` outside of all routines
example : (Stmt.listSites [] [] [.block [.letDecl ⟨"a", 1⟩ (some (.variable ⟨0, ⟨"a", 1⟩⟩)),
    .letDecl ⟨"a", 2⟩ none, .returnValue 3 none]]).countP (·.Violates) = 3 := by
  decide +kernel

end Analysis

end Scriptlet
