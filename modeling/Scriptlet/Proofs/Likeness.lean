import Scriptlet.Proofs.Grammar
import Scriptlet.Proofs.Places
import Mathlib.Data.List.Forall2

/-!
# Trees that are alike

Two trees are alike if they differ at most in the identities of their nodes and in their lines, and these
correspond. A correspondence can be exchanged for another one that holds wherever two nodes stand at the same
place of their texts.
-/
namespace Scriptlet

/-- Which nodes and which lines of two texts correspond. -/
structure Matching where
  node : NodeId → NodeId → Prop
  line : Nat → Nat → Prop

/-- Any two nodes, but only equal lines. -/
def Matching.lines : Matching := ⟨fun _ _ => True, Eq⟩

section Relation

variable (c : Matching)

structure Name.Like (n n' : Name) : Prop where
  text : n'.text = n.text
  line : c.line n.line n'.line

structure Variable.Like (v v' : Variable) : Prop where
  node : c.node v.id v'.id
  name : v.name.Like c v'.name

inductive Expr.Like : Expr → Expr → Prop where
  | literal (value : Literal) : Like (.literal value) (.literal value)
  | group {e e'} : Like e e' → Like (.group e) (.group e')
  | unary {op l l' e e'} : c.line l l' → Like e e' → Like (.unary op l e) (.unary op l' e')
  | binary {a a' op l l' b b'} : Like a a' → c.line l l' → Like b b' →
    Like (.binary a op l b) (.binary a' op l' b')
  | logical {a a' op l l' b b'} : Like a a' → c.line l l' → Like b b' →
    Like (.logical a op l b) (.logical a' op l' b')
  | variable {v v'} : v.Like c v' → Like (.variable v) (.variable v')
  | assign {v v' e e'} : v.Like c v' → Like e e' → Like (.assign v e) (.assign v' e')
  | this {id id' l l'} : c.node id id' → c.line l l' → Like (.this id l) (.this id' l')
  | super {id id' l l' m m'} : c.node id id' → c.line l l' → m.Like c m' →
    Like (.super id l m) (.super id' l' m')
  | call {f f' l l' es es'} : Like f f' → c.line l l' → List.Forall₂ Like es es' →
    Like (.call f l es) (.call f' l' es')
  | get {o o' n n'} : Like o o' → n.Like c n' → Like (.get o n) (.get o' n')
  | set {o o' n n' e e'} : Like o o' → n.Like c n' → Like e e' → Like (.set o n e) (.set o' n' e')
  | array {es es'} : List.Forall₂ Like es es' → Like (.array es) (.array es')

mutual

inductive Stmt.Like : Stmt → Stmt → Prop where
  | expression {e e'} : e.Like c e' → Stmt.Like (.expression e) (.expression e')
  | print {e e'} : e.Like c e' → Stmt.Like (.print e) (.print e')
  | letDecl {n n' e e'} : n.Like c n' → Option.Rel (Expr.Like c) e e' → Stmt.Like (.letDecl n e) (.letDecl n' e')
  | constDecl {n n' e e'} : n.Like c n' → e.Like c e' → Stmt.Like (.constDecl n e) (.constDecl n' e')
  | block {b b'} : List.Forall₂ Stmt.Like b b' → Stmt.Like (.block b) (.block b')
  | ifThen {e e' t t'} : e.Like c e' → Stmt.Like t t' → Stmt.Like (.ifThen e t) (.ifThen e' t')
  | ifElse {e e' t t' o o'} : e.Like c e' → Stmt.Like t t' → Stmt.Like o o' →
    Stmt.Like (.ifElse e t o) (.ifElse e' t' o')
  | whileLoop {e e' b b' i i'} : e.Like c e' → Stmt.Like b b' → Option.Rel (Expr.Like c) i i' →
    Stmt.Like (.whileLoop e b i) (.whileLoop e' b' i')
  | doWhile {b b' e e'} : Stmt.Like b b' → e.Like c e' → Stmt.Like (.doWhile b e) (.doWhile b' e')
  | function {d d'} : Routine.Like d d' → Stmt.Like (.function d) (.function d')
  | classDecl {n n' s s' ms ms' ss ss'} : n.Like c n' → Option.Rel (Variable.Like c) s s' →
    List.Forall₂ Routine.Like ms ms' → List.Forall₂ Routine.Like ss ss' →
    Stmt.Like (.classDecl n s ms ss) (.classDecl n' s' ms' ss')
  | returnValue {l l' e e'} : c.line l l' → Option.Rel (Expr.Like c) e e' →
    Stmt.Like (.returnValue l e) (.returnValue l' e')
  | breakLoop {l l'} : c.line l l' → Stmt.Like (.breakLoop l) (.breakLoop l')
  | continueLoop {l l'} : c.line l l' → Stmt.Like (.continueLoop l) (.continueLoop l')
  | importFile {l l'} (path : String) : c.line l l' → Stmt.Like (.importFile l path) (.importFile l' path)

inductive Routine.Like : FunctionDecl → FunctionDecl → Prop where
  | mk {n n' ps ps' b b'} : n.Like c n' → List.Forall₂ (Name.Like c) ps ps' → List.Forall₂ Stmt.Like b b' →
    Routine.Like ⟨n, ps, b⟩ ⟨n', ps', b'⟩

end

end Relation

namespace Routine.Like

variable {c : Matching} {d d' : FunctionDecl}

theorem name (h : d.Like c d') : d.name.Like c d'.name := by
  cases h with
  | mk hn _ _ => exact hn

theorem params (h : d.Like c d') : List.Forall₂ (Name.Like c) d.params d'.params := by
  cases h with
  | mk _ hps _ => exact hps

theorem body (h : d.Like c d') : List.Forall₂ (Stmt.Like c) d.body d'.body := by
  cases h with
  | mk _ _ hb => exact hb

end Routine.Like

/-! ## A tree is like itself -/

/-- Everything corresponds to itself. -/
structure Matching.Refl (c : Matching) : Prop where
  node (id : NodeId) : c.node id id
  line (l : Nat) : c.line l l

namespace Matching.Refl

variable {c : Matching} (hc : c.Refl)

include hc

theorem name (n : Name) : n.Like c n := ⟨rfl, hc.line _⟩

theorem use (v : Variable) : v.Like c v := ⟨hc.node _, hc.name _⟩

end Matching.Refl

theorem rel_refl {α : Type} {R : α → α → Prop} (h : ∀ a, R a a) (a : Option α) : Option.Rel R a a := by
  cases a with
  | none => exact .none
  | some a => exact .some (h a)

namespace Expr

variable {c : Matching}

mutual

theorem like_refl (hc : c.Refl) (e : Expr) : e.Like c e := by
  cases e with
  | literal value => exact .literal value
  | group e => exact .group (like_refl hc e)
  | unary op l e => exact .unary (hc.line l) (like_refl hc e)
  | binary a op l b => exact .binary (like_refl hc a) (hc.line l) (like_refl hc b)
  | logical a op l b => exact .logical (like_refl hc a) (hc.line l) (like_refl hc b)
  | «variable» v => exact .variable (hc.use v)
  | assign v e => exact .assign (hc.use v) (like_refl hc e)
  | this id l => exact .this (hc.node id) (hc.line l)
  | super id l m => exact .super (hc.node id) (hc.line l) (hc.name m)
  | call f l es => exact .call (like_refl hc f) (hc.line l) (list_like_refl hc es)
  | get o n => exact .get (like_refl hc o) (hc.name n)
  | set o n e => exact .set (like_refl hc o) (hc.name n) (like_refl hc e)
  | array es => exact .array (list_like_refl hc es)

theorem list_like_refl (hc : c.Refl) (es : List Expr) : List.Forall₂ (Like c) es es := by
  cases es with
  | nil => exact .nil
  | cons e es => exact .cons (like_refl hc e) (list_like_refl hc es)

end

end Expr

namespace Stmt

variable {c : Matching}

mutual

theorem like_refl (hc : c.Refl) (s : Stmt) : s.Like c s := by
  cases s with
  | expression e => exact .expression (e.like_refl hc)
  | print e => exact .print (e.like_refl hc)
  | letDecl n e => exact .letDecl (hc.name n) (rel_refl (Expr.like_refl hc) e)
  | constDecl n e => exact .constDecl (hc.name n) (e.like_refl hc)
  | block b => exact .block (list_like_refl hc b)
  | ifThen e t => exact .ifThen (e.like_refl hc) (like_refl hc t)
  | ifElse e t o => exact .ifElse (e.like_refl hc) (like_refl hc t) (like_refl hc o)
  | whileLoop e b i => exact .whileLoop (e.like_refl hc) (like_refl hc b) (rel_refl (Expr.like_refl hc) i)
  | doWhile b e => exact .doWhile (like_refl hc b) (e.like_refl hc)
  | function d => exact .function (routine_like_refl hc d)
  | classDecl n s ms ss =>
    exact .classDecl (hc.name n) (rel_refl hc.use s) (routines_like_refl hc ms) (routines_like_refl hc ss)
  | returnValue l e => exact .returnValue (hc.line l) (rel_refl (Expr.like_refl hc) e)
  | breakLoop l => exact .breakLoop (hc.line l)
  | continueLoop l => exact .continueLoop (hc.line l)
  | importFile l path => exact .importFile path (hc.line l)

theorem list_like_refl (hc : c.Refl) (ss : List Stmt) : List.Forall₂ (Like c) ss ss := by
  cases ss with
  | nil => exact .nil
  | cons s ss => exact .cons (like_refl hc s) (list_like_refl hc ss)

theorem routine_like_refl (hc : c.Refl) (d : FunctionDecl) : d.Like c d := by
  obtain ⟨n, ps, b⟩ := d
  exact .mk (hc.name n) (List.forall₂_same.2 fun p _ => hc.name p) (list_like_refl hc b)

theorem routines_like_refl (hc : c.Refl) (ds : List FunctionDecl) : List.Forall₂ (Routine.Like c) ds ds := by
  cases ds with
  | nil => exact .nil
  | cons d ds => exact .cons (routine_like_refl hc d) (routines_like_refl hc ds)

end

end Stmt

/-! ## Trees that are equal up to identities -/

theorem Variable.like_of_bare {v v' : Variable} (h : v.bare = v'.bare) : v.Like .lines v' := by
  obtain ⟨id, name⟩ := v
  obtain ⟨id', name'⟩ := v'
  cases h
  exact ⟨trivial, rfl, rfl⟩

theorem Name.like_refl (n : Name) : n.Like .lines n := ⟨rfl, rfl⟩

namespace Expr

mutual

theorem like_of_bare {e e' : Expr} (h : e.bare = e'.bare) : e.Like .lines e' := by
  cases e with
  | literal =>
    cases e' with
    | literal => cases h; exact .literal _
    | _ => cases h
  | group =>
    cases e' with
    | group => injection h with he; exact .group (like_of_bare he)
    | _ => cases h
  | unary =>
    cases e' with
    | unary => injection h with hop hl he; subst hop; exact .unary hl (like_of_bare he)
    | _ => cases h
  | binary =>
    cases e' with
    | binary =>
      injection h with ha hop hl hb
      subst hop
      exact .binary (like_of_bare ha) hl (like_of_bare hb)
    | _ => cases h
  | logical =>
    cases e' with
    | logical =>
      injection h with ha hop hl hb
      subst hop
      exact .logical (like_of_bare ha) hl (like_of_bare hb)
    | _ => cases h
  | «variable» =>
    cases e' with
    | «variable» => injection h with hv; exact .variable (Variable.like_of_bare hv)
    | _ => cases h
  | assign =>
    cases e' with
    | assign => injection h with hv he; exact .assign (Variable.like_of_bare hv) (like_of_bare he)
    | _ => cases h
  | this =>
    cases e' with
    | this => injection h with _ hl; exact .this trivial hl
    | _ => cases h
  | super =>
    cases e' with
    | super => injection h with _ hl hm; subst hm; exact .super trivial hl (Name.like_refl _)
    | _ => cases h
  | call =>
    cases e' with
    | call => injection h with hf hl hes; exact .call (like_of_bare hf) hl (like_of_listBare hes)
    | _ => cases h
  | get =>
    cases e' with
    | get => injection h with ho hn; subst hn; exact .get (like_of_bare ho) (Name.like_refl _)
    | _ => cases h
  | set =>
    cases e' with
    | set =>
      injection h with ho hn he
      subst hn
      exact .set (like_of_bare ho) (Name.like_refl _) (like_of_bare he)
    | _ => cases h
  | array =>
    cases e' with
    | array => injection h with hes; exact .array (like_of_listBare hes)
    | _ => cases h

theorem like_of_listBare {es es' : List Expr} (h : listBare es = listBare es') :
    List.Forall₂ (Like .lines) es es' := by
  cases es with
  | nil =>
    cases es' with
    | nil => exact .nil
    | cons => cases h
  | cons =>
    cases es' with
    | nil => cases h
    | cons => injection h with he hes; exact .cons (like_of_bare he) (like_of_listBare hes)

end

theorem like_of_optionBare {e e' : Option Expr} (h : e.map bare = e'.map bare) :
    Option.Rel (Like .lines) e e' := by
  cases e with
  | none =>
    cases e' with
    | none => exact .none
    | some => cases h
  | some =>
    cases e' with
    | none => cases h
    | some => injection h with he; exact .some (like_of_bare he)

end Expr

theorem Variable.like_of_optionBare {v v' : Option Variable} (h : v.map bare = v'.map bare) :
    Option.Rel (Like .lines) v v' := by
  cases v with
  | none =>
    cases v' with
    | none => exact .none
    | some => cases h
  | some =>
    cases v' with
    | none => cases h
    | some => injection h with hv; exact .some (like_of_bare hv)

theorem Name.like_refl_list (ns : List Name) : List.Forall₂ (Name.Like .lines) ns ns :=
  List.forall₂_same.2 fun n _ => n.like_refl

namespace Stmt

open Scriptlet.Expr (like_of_bare like_of_optionBare)

mutual

theorem like_of_bare {s s' : Stmt} (h : s.bare = s'.bare) : s.Like .lines s' := by
  cases s with
  | expression =>
    cases s' with
    | expression => injection h with he; exact .expression (Expr.like_of_bare he)
    | _ => cases h
  | print =>
    cases s' with
    | print => injection h with he; exact .print (Expr.like_of_bare he)
    | _ => cases h
  | letDecl =>
    cases s' with
    | letDecl => injection h with hn he; subst hn; exact .letDecl (Name.like_refl _) (like_of_optionBare he)
    | _ => cases h
  | constDecl =>
    cases s' with
    | constDecl => injection h with hn he; subst hn; exact .constDecl (Name.like_refl _) (Expr.like_of_bare he)
    | _ => cases h
  | block =>
    cases s' with
    | block => injection h with hb; exact .block (like_of_listBare hb)
    | _ => cases h
  | ifThen =>
    cases s' with
    | ifThen => injection h with he ht; exact .ifThen (Expr.like_of_bare he) (like_of_bare ht)
    | _ => cases h
  | ifElse =>
    cases s' with
    | ifElse =>
      injection h with he ht ho
      exact .ifElse (Expr.like_of_bare he) (like_of_bare ht) (like_of_bare ho)
    | _ => cases h
  | whileLoop =>
    cases s' with
    | whileLoop =>
      injection h with he hb hi
      exact .whileLoop (Expr.like_of_bare he) (like_of_bare hb) (like_of_optionBare hi)
    | _ => cases h
  | doWhile =>
    cases s' with
    | doWhile => injection h with hb he; exact .doWhile (like_of_bare hb) (Expr.like_of_bare he)
    | _ => cases h
  | function =>
    cases s' with
    | function => injection h with hd; exact .function (like_of_routineBare hd)
    | _ => cases h
  | classDecl =>
    cases s' with
    | classDecl =>
      injection h with hn hs hm hss
      subst hn
      exact .classDecl (Name.like_refl _) (Variable.like_of_optionBare hs) (like_of_routinesBare hm)
        (like_of_routinesBare hss)
    | _ => cases h
  | returnValue =>
    cases s' with
    | returnValue => injection h with hl he; exact .returnValue hl (like_of_optionBare he)
    | _ => cases h
  | breakLoop =>
    cases s' with
    | breakLoop => injection h with hl; exact .breakLoop hl
    | _ => cases h
  | continueLoop =>
    cases s' with
    | continueLoop => injection h with hl; exact .continueLoop hl
    | _ => cases h
  | importFile =>
    cases s' with
    | importFile => injection h with hl hp; subst hp; exact .importFile _ hl
    | _ => cases h
termination_by structural s

theorem like_of_listBare {ss ss' : List Stmt} (h : listBare ss = listBare ss') :
    List.Forall₂ (Like .lines) ss ss' := by
  cases ss with
  | nil =>
    cases ss' with
    | nil => exact .nil
    | cons => cases h
  | cons =>
    cases ss' with
    | nil => cases h
    | cons => injection h with hs hss; exact .cons (like_of_bare hs) (like_of_listBare hss)
termination_by structural ss

theorem like_of_routineBare {d d' : FunctionDecl} (h : routineBare d = routineBare d') :
    d.Like .lines d' := by
  obtain ⟨name, params, body⟩ := d
  obtain ⟨name', params', body'⟩ := d'
  injection h with hn hp hb
  subst hn hp
  exact .mk (Name.like_refl _) (Name.like_refl_list _) (like_of_listBare hb)
termination_by structural d

theorem like_of_routinesBare {ds ds' : List FunctionDecl} (h : routinesBare ds = routinesBare ds') :
    List.Forall₂ (Routine.Like .lines) ds ds' := by
  cases ds with
  | nil =>
    cases ds' with
    | nil => exact .nil
    | cons => cases h
  | cons =>
    cases ds' with
    | nil => cases h
    | cons => injection h with hd hds; exact .cons (like_of_routineBare hd) (like_of_routinesBare hds)
termination_by structural ds

end

end Stmt

/-! ## Like trees without their identities -/

theorem Name.Like.eq {n n' : Name} (h : n.Like .lines n') : n = n' := by
  obtain ⟨text, line⟩ := n
  obtain ⟨text', line'⟩ := n'
  obtain ⟨rfl, hl⟩ := h
  exact congrArg (Name.mk _) hl

theorem Name.Like.eq_list {ns ns' : List Name} (h : List.Forall₂ (Name.Like .lines) ns ns') : ns = ns' :=
  List.forall₂_eq_eq_eq ▸ h.imp fun _ _ => Name.Like.eq

theorem Variable.Like.bare_eq {v v' : Variable} (h : v.Like .lines v') : v.bare = v'.bare :=
  congrArg (Variable.mk 0) h.name.eq

theorem map_eq_of_rel {α β : Type} {R : α → α → Prop} {f : α → β} (hf : ∀ a a', R a a' → f a = f a')
    {a a' : Option α} (h : Option.Rel R a a') : a.map f = a'.map f := by
  cases h with
  | none => rfl
  | some h => exact congrArg some (hf _ _ h)

namespace Expr

mutual

theorem Like.bare_eq {e e' : Expr} (h : e.Like .lines e') : e.bare = e'.bare := by
  cases h with
  | literal value => rfl
  | group he => rw [bare, bare, he.bare_eq]
  | unary hl he => cases hl; rw [bare, bare, he.bare_eq]
  | binary ha hl hb => cases hl; rw [bare, bare, ha.bare_eq, hb.bare_eq]
  | logical ha hl hb => cases hl; rw [bare, bare, ha.bare_eq, hb.bare_eq]
  | «variable» hv => rw [bare, bare, hv.bare_eq]
  | assign hv he => rw [bare, bare, hv.bare_eq, he.bare_eq]
  | this _ hl => cases hl; rw [bare, bare]
  | super _ hl hm => cases hl; rw [bare, bare, hm.eq]
  | call hf hl hes => cases hl; rw [bare, bare, hf.bare_eq, Like.listBare_eq hes]
  | get ho hn => rw [bare, bare, ho.bare_eq, hn.eq]
  | set ho hn he => rw [bare, bare, ho.bare_eq, hn.eq, he.bare_eq]
  | array hes => rw [bare, bare, Like.listBare_eq hes]
termination_by structural e

theorem Like.listBare_eq {es es' : List Expr} (h : List.Forall₂ (Like .lines) es es') :
    listBare es = listBare es' := by
  cases h with
  | nil => rfl
  | cons he hes => rw [listBare, listBare, he.bare_eq, Like.listBare_eq hes]
termination_by structural es

end

theorem Like.optionBare_eq {e e' : Option Expr} (h : Option.Rel (Like .lines) e e') : e.map bare = e'.map bare :=
  map_eq_of_rel (fun _ _ he => he.bare_eq) h

end Expr

namespace Stmt

mutual

theorem Like.bare_eq {s s' : Stmt} (h : s.Like .lines s') : s.bare = s'.bare := by
  cases h with
  | expression he => rw [bare, bare, he.bare_eq]
  | print he => rw [bare, bare, he.bare_eq]
  | letDecl hn he => rw [bare, bare, hn.eq, Expr.Like.optionBare_eq he]
  | constDecl hn he => rw [bare, bare, hn.eq, he.bare_eq]
  | block hb => rw [bare, bare, Like.listBare_eq hb]
  | ifThen he ht => rw [bare, bare, he.bare_eq, ht.bare_eq]
  | ifElse he ht ho => rw [bare, bare, he.bare_eq, ht.bare_eq, ho.bare_eq]
  | whileLoop he hb hi => rw [bare, bare, he.bare_eq, hb.bare_eq, Expr.Like.optionBare_eq hi]
  | doWhile hb he => rw [bare, bare, hb.bare_eq, he.bare_eq]
  | function hd => rw [bare, bare, Like.routineBare_eq hd]
  | classDecl hn hs hms hss =>
    rw [bare, bare, hn.eq, map_eq_of_rel (fun _ _ hv => hv.bare_eq) hs, Like.routinesBare_eq hms,
      Like.routinesBare_eq hss]
  | returnValue hl he => cases hl; rw [bare, bare, Expr.Like.optionBare_eq he]
  | breakLoop hl => cases hl; rfl
  | continueLoop hl => cases hl; rfl
  | importFile path hl => cases hl; rfl
termination_by structural s

theorem Like.listBare_eq {ss ss' : List Stmt} (h : List.Forall₂ (Like .lines) ss ss') :
    listBare ss = listBare ss' := by
  cases h with
  | nil => rfl
  | cons hs hss => rw [listBare, listBare, hs.bare_eq, Like.listBare_eq hss]
termination_by structural ss

theorem Like.routineBare_eq {d d' : FunctionDecl} (h : d.Like .lines d') :
    routineBare d = routineBare d' := by
  cases h with
  | mk hn hps hb => rw [routineBare, routineBare, hn.eq, Name.Like.eq_list hps, Like.listBare_eq hb]
termination_by structural d

theorem Like.routinesBare_eq {ds ds' : List FunctionDecl} (h : List.Forall₂ (Routine.Like .lines) ds ds') :
    routinesBare ds = routinesBare ds' := by
  cases h with
  | nil => rfl
  | cons hd hds => rw [routinesBare, routinesBare, Like.routineBare_eq hd, Like.routinesBare_eq hds]
termination_by structural ds

end

end Stmt

/-! ## Another correspondence -/

/-- Uses of one name that correspond in one way also do in another. -/
def Matching.Carries (c c' : Matching) (us us' : List Use) : Prop :=
  ∀ u ∈ us, ∀ u' ∈ us', u'.name = u.name → c.node u.id u'.id → c'.node u.id u'.id

section Change

variable {c c' : Matching} {us us' vs vs' : List Use}

theorem Matching.Carries.left (h : c.Carries c' (us ++ vs) (us' ++ vs')) : c.Carries c' us us' :=
  fun u hu u' hu' => h u (List.mem_append_left _ hu) u' (List.mem_append_left _ hu')

theorem Matching.Carries.right (h : c.Carries c' (us ++ vs) (us' ++ vs')) : c.Carries c' vs vs' :=
  fun u hu u' hu' => h u (List.mem_append_right _ hu) u' (List.mem_append_right _ hu')

theorem Matching.Carries.node {u u' : Use} (h : c.Carries c' [u] [u']) (hn : u'.name = u.name)
    (hc : c.node u.id u'.id) : c'.node u.id u'.id :=
  h u (List.mem_singleton.2 rfl) u' (List.mem_singleton.2 rfl) hn hc

theorem Name.Like.change (hl : ∀ {l l'}, c.line l l' → c'.line l l') {n n' : Name} (h : n.Like c n') :
    n.Like c' n' := ⟨h.text, hl h.line⟩

theorem Variable.Like.change_option (hl : ∀ {l l'}, c.line l l' → c'.line l l') {v v' : Option Variable}
    (h : Option.Rel (Like c) v v')
    (hu : c.Carries c' (v.toList.map Variable.reading) (v'.toList.map Variable.reading)) :
    Option.Rel (Like c') v v' := by
  cases h with
  | none => exact .none
  | some hv => exact .some ⟨hu.node hv.name.text hv.node, hv.name.change hl⟩

namespace Expr

mutual

theorem Like.change (hl : ∀ {l l'}, c.line l l' → c'.line l l') {e e' : Expr} (h : e.Like c e')
    (hu : c.Carries c' e.uses e'.uses) : e.Like c' e' := by
  cases h with
  | literal value => exact .literal value
  | group he => exact .group (he.change hl hu)
  | unary hline he => exact .unary (hl hline) (he.change hl hu)
  | binary ha hline hb => exact .binary (ha.change hl hu.left) (hl hline) (hb.change hl hu.right)
  | logical ha hline hb => exact .logical (ha.change hl hu.left) (hl hline) (hb.change hl hu.right)
  | «variable» hv => exact .variable ⟨hu.node hv.name.text hv.node, hv.name.change hl⟩
  | assign hv he =>
    exact .assign ⟨hu.right.node hv.name.text hv.node, hv.name.change hl⟩ (he.change hl hu.left)
  | this hn hline => exact .this (hu.node rfl hn) (hl hline)
  | super hn hline hm => exact .super (hu.node rfl hn) (hl hline) (hm.change hl)
  | call hf hline hes => exact .call (hf.change hl hu.left) (hl hline) (change_list hl hes hu.right)
  | get ho hn => exact .get (ho.change hl hu) (hn.change hl)
  | set ho hn he => exact .set (ho.change hl hu.right) (hn.change hl) (he.change hl hu.left)
  | array hes => exact .array (change_list hl hes hu)
termination_by structural e

theorem Like.change_list (hl : ∀ {l l'}, c.line l l' → c'.line l l') {es es' : List Expr}
    (h : List.Forall₂ (Like c) es es') (hu : c.Carries c' (listUses es) (listUses es')) :
    List.Forall₂ (Like c') es es' := by
  cases h with
  | nil => exact .nil
  | cons he hes => exact .cons (he.change hl hu.left) (change_list hl hes hu.right)
termination_by structural es

end

theorem Like.change_option (hl : ∀ {l l'}, c.line l l' → c'.line l l') {e e' : Option Expr}
    (h : Option.Rel (Like c) e e') (hu : c.Carries c' (optionUses e) (optionUses e')) :
    Option.Rel (Like c') e e' := by
  cases h with
  | none => exact .none
  | some he => exact .some (he.change hl hu)

end Expr

end Change

open Layers

/-- A relation between the layers at two places that stays when like trees are entered. -/
structure Layers.Follow (c : Matching) (R : List Layer → List Layer → Prop) : Prop where
  after {s s' layers layers'} : s.Like c s' → R layers layers' → R (after s layers) (after s' layers')
  inside {s s' layers layers'} : s.Like c s' → R layers layers' → R (inside s layers) (inside s' layers')
  block {body body' layers layers'} : R layers layers' → R (.block body :: layers) (.block body' :: layers')
  function {d d' : FunctionDecl} {layers layers'} : d.Like c d' → R layers layers' →
    R (.routine d :: mark d.name.text true layers) (.routine d' :: mark d'.name.text true layers')
  method {n n' s s' ms ms' ss ss'} {d d' : FunctionDecl} {layers layers'} :
    Stmt.Like c (.classDecl n s ms ss) (.classDecl n' s' ms' ss') → d.Like c d' → R layers layers' →
    R (.routine d :: .receiver d :: ofClass n s ms ss layers)
      (.routine d' :: .receiver d' :: ofClass n' s' ms' ss' layers')
  static {n n' s s' ms ms' ss ss'} {d d' : FunctionDecl} {layers layers'} :
    Stmt.Like c (.classDecl n s ms ss) (.classDecl n' s' ms' ss') → d.Like c d' → R layers layers' →
    R (.routine d :: .statics (.classDecl n s ms ss) :: ofClass n s ms ss layers)
      (.routine d' :: .statics (.classDecl n' s' ms' ss') :: ofClass n' s' ms' ss' layers')

theorem Layers.follow_all (c : Matching) : Follow c fun _ _ => True :=
  ⟨fun _ _ => trivial, fun _ _ => trivial, fun _ => trivial, fun _ _ => trivial, fun _ _ _ => trivial,
    fun _ _ _ => trivial⟩

/-- Nodes of two texts that correspond in one way also do in another, if their places are related. -/
structure Exchange (c c' : Matching) (R : List Layer → List Layer → Prop) (text text' : List Stmt) : Prop where
  line {l l'} : c.line l l' → c'.line l l'
  follow : Layers.Follow c R
  node {layers layers' u u'} : R layers layers' → Placed text layers (.use u) → Placed text' layers' (.use u') →
    u'.name = u.name → c.node u.id u'.id → c'.node u.id u'.id

namespace Stmt

variable {c c' : Matching} {R : List Layer → List Layer → Prop} {text text' : List Stmt}

mutual

theorem Like.change (x : Exchange c c' R text text') {s s' : Stmt} (h : s.Like c s') {layers layers' : List Layer}
    (hr : R layers layers') (hp : Placed text layers (.statement s))
    (hp' : Placed text' layers' (.statement s')) : s.Like c' s' := by
  have own : c.Carries c' s.uses s'.uses :=
    fun u hu u' hu' => x.node (x.follow.inside h hr) (hp.use hu) (hp'.use hu')
  cases h with
  | expression he => exact .expression (he.change x.line own)
  | print he => exact .print (he.change x.line own)
  | letDecl hname he => exact .letDecl (hname.change x.line) (Expr.Like.change_option x.line he own)
  | constDecl hname he => exact .constDecl (hname.change x.line) (he.change x.line own)
  | block hb => exact .block (change_list x hb (x.follow.block hr) hp.block hp'.block)
  | ifThen he ht =>
    have inner := ht.change x hr (hp.branch (List.mem_singleton.2 rfl)) (hp'.branch (List.mem_singleton.2 rfl))
    exact .ifThen (he.change x.line own) inner
  | ifElse he ht ho =>
    have inner := ht.change x hr (hp.branch (List.mem_cons_self ..)) (hp'.branch (List.mem_cons_self ..))
    have other := ho.change x hr (hp.branch (List.mem_cons_of_mem _ (List.mem_singleton.2 rfl)))
      (hp'.branch (List.mem_cons_of_mem _ (List.mem_singleton.2 rfl)))
    exact .ifElse (he.change x.line own) inner other
  | whileLoop he hb hi =>
    have inner := hb.change x hr (hp.branch (List.mem_singleton.2 rfl)) (hp'.branch (List.mem_singleton.2 rfl))
    exact .whileLoop (he.change x.line own.left) inner (Expr.Like.change_option x.line hi own.right)
  | doWhile hb he =>
    have inner := hb.change x hr (hp.branch (List.mem_singleton.2 rfl)) (hp'.branch (List.mem_singleton.2 rfl))
    exact .doWhile inner (he.change x.line own)
  | function hd => exact .function (change_routine x hd (x.follow.function hd hr) hp.function hp'.function)
  | classDecl hname hs hms hss =>
    have whole := Like.classDecl hname hs hms hss
    have methods := change_routines x hms (fun hd => x.follow.method whole hd hr) (fun _ hd => hp.method hd)
      (fun _ hd => hp'.method hd)
    have statics := change_routines x hss (fun hd => x.follow.static whole hd hr) (fun _ hd => hp.static hd)
      (fun _ hd => hp'.static hd)
    exact .classDecl (hname.change x.line) (Variable.Like.change_option x.line hs own) methods statics
  | returnValue hline he => exact .returnValue (x.line hline) (Expr.Like.change_option x.line he own)
  | breakLoop hline => exact .breakLoop (x.line hline)
  | continueLoop hline => exact .continueLoop (x.line hline)
  | importFile path hline => exact .importFile path (x.line hline)
termination_by structural s

theorem Like.change_list (x : Exchange c c' R text text') {ss ss' : List Stmt}
    (h : List.Forall₂ (Like c) ss ss') {layers layers' : List Layer} (hr : R layers layers')
    (hp : Placed text layers (.statements ss)) (hp' : Placed text' layers' (.statements ss')) :
    List.Forall₂ (Like c') ss ss' := by
  cases h with
  | nil => exact .nil
  | cons hs hss =>
    have rest := change_list x hss (x.follow.after hs hr) hp.rest hp'.rest
    exact .cons (hs.change x hr hp.first hp'.first) rest
termination_by structural ss

theorem Like.change_routine (x : Exchange c c' R text text') {d d' : FunctionDecl} (h : d.Like c d')
    {layers layers' : List Layer} (hr : R layers layers') (hp : Placed text layers (.statements d.body))
    (hp' : Placed text' layers' (.statements d'.body)) : d.Like c' d' := by
  cases h with
  | mk hname hps hb =>
    have params := hps.imp fun _ _ hn => hn.change x.line
    exact .mk (hname.change x.line) params (change_list x hb hr hp hp')
termination_by structural d

theorem Like.change_routines (x : Exchange c c' R text text') {ds ds' : List FunctionDecl}
    (h : List.Forall₂ (Routine.Like c) ds ds') {around around' : FunctionDecl → List Layer}
    (hr : ∀ {d d'}, Routine.Like c d d' → R (around d) (around' d'))
    (hp : ∀ d ∈ ds, Placed text (around d) (.statements d.body))
    (hp' : ∀ d ∈ ds', Placed text' (around' d) (.statements d.body)) :
    List.Forall₂ (Routine.Like c') ds ds' := by
  cases h with
  | nil => exact .nil
  | cons hd hds =>
    have head := change_routine x hd (hr hd) (hp _ (List.mem_cons_self ..)) (hp' _ (List.mem_cons_self ..))
    have rest := change_routines x hds hr (fun d h => hp d (List.mem_cons_of_mem _ h))
      (fun d h => hp' d (List.mem_cons_of_mem _ h))
    exact .cons head rest
termination_by structural ds

end

/-- Statements in a row that is placed may have others after them. -/
theorem Like.change_front (x : Exchange c c' R text text') {ss ss' more more' : List Stmt}
    (h : List.Forall₂ (Like c) ss ss') {layers layers' : List Layer} (hr : R layers layers')
    (hp : Placed text layers (.statements (ss ++ more)))
    (hp' : Placed text' layers' (.statements (ss' ++ more'))) : List.Forall₂ (Like c') ss ss' := by
  induction h generalizing layers layers' with
  | nil => exact .nil
  | cons hs _ ih => exact .cons (hs.change x hr hp.first hp'.first) (ih (x.follow.after hs hr) hp.rest hp'.rest)

/-- Where the places do not matter. -/
theorem Like.mono_list (hl : ∀ {l l'}, c.line l l' → c'.line l l') (hn : ∀ {id id'}, c.node id id' → c'.node id id')
    {ss ss' : List Stmt} (h : List.Forall₂ (Like c) ss ss') : List.Forall₂ (Like c') ss ss' := by
  have x : Exchange c c' (fun _ _ => True) ss ss' := ⟨hl, Layers.follow_all c, fun _ _ _ _ => hn⟩
  exact change_list x h trivial .whole .whole

end Stmt

end Scriptlet
