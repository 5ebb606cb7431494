import Scriptlet.Proofs.LikeStores
import Scriptlet.Proofs.Twins
import Scriptlet.Tree.Parse

/-!
# Parses of like tokens

Tokens that differ only in their lines are parsed alike, from any node on: the parser asks for the kind of a
token and takes over its text, and it only counts nodes.
-/
namespace Scriptlet

section Relation

variable (p : Pairing)

structure Token.Like (t t' : Token) : Prop where
  kind : t'.kind = t.kind
  lexeme : t'.lexeme = t.lexeme
  line : p.Line t.line t'.line

structure Located.Like {ε : Type} (line : Nat → Nat → Prop) (e e' : Located ε) : Prop where
  line : line e.line e'.line
  location : e'.location = e.location
  problem : e'.problem = e.problem

structure Parser.State.Like (s s' : Parser.State) : Prop where
  rest : List.Forall₂ (Token.Like p) s.rest s'.rest
  problems : List.Forall₂ (Located.Like p.Line) s.problems s'.problems
  nextId : p.Fresh s.nextId s'.nextId

/-- The coupling of parsers. -/
def Pairing.parsers : Coupling (Located SyntaxError) Parser.State where
  state := Parser.State.Like p
  failure e s e' s' := e.Like p.Line e' ∧ s.Like p s'

end Relation

variable {p : Pairing} {α β : Type} {R : α → β → Prop}

namespace Token.Like

variable {t t' : Token}

theorem isEnd (h : t.Like p t') : t'.isEnd = t.isEnd := by
  rw [Token.isEnd, Token.isEnd, h.kind]

theorem located (h : t.Like p t') (problem : SyntaxError) :
    (Located.atToken t problem).Like p.Line (Located.atToken t' problem) := by
  refine ⟨h.line, ?_, rfl⟩
  simp only [Located.atToken, Token.location, h.isEnd, h.lexeme]

theorem named (h : t.Like p t') : Name.Like p.newTrees ⟨t.lexeme, t.line⟩ ⟨t'.lexeme, t'.line⟩ := ⟨h.lexeme, h.line⟩

end Token.Like

namespace Parser

/-! ## Tokens -/

theorem peek_twins : Twins p.parsers (Token.Like p) peek peek := by
  apply Twins.get.bind
  intro s s' hs
  have rest := hs.rest
  apply Twins.pure
  cases hr : s.rest with
  | nil =>
    rw [hr] at rest
    rw [List.forall₂_nil_left_iff.1 rest]
    exact ⟨rfl, rfl, .inl rfl⟩
  | cons t ts =>
    rw [hr] at rest
    obtain ⟨t', ts', ht, -, hr'⟩ := List.forall₂_cons_left_iff.1 rest
    rw [hr']
    exact ht

theorem atEnd_twins : Twins p.parsers Eq atEnd atEnd :=
  peek_twins.bind fun _ _ ht => .pure ht.isEnd.symm

theorem remaining_twins : Twins p.parsers Eq remaining remaining := by
  apply Twins.get.bind
  intro s s' hs
  apply Twins.pure
  rw [s.unread_eq, s'.unread_eq, hs.rest.length_eq]

theorem skip_like {s s' : State} (h : s.Like p s') : s.skip.Like p s'.skip := by
  have rest : List.Forall₂ (Token.Like p) s.rest.tail s'.rest.tail := by
    have rest := h.rest
    cases hr : s.rest with
    | nil =>
      rw [hr] at rest
      rw [List.forall₂_nil_left_iff.1 rest]
      exact .nil
    | cons t ts =>
      rw [hr] at rest
      obtain ⟨t', ts', -, hts, hr'⟩ := List.forall₂_cons_left_iff.1 rest
      rw [hr']
      exact hts
  exact ⟨rest, h.problems, h.nextId⟩

theorem advance_twins : Twins p.parsers (Token.Like p) advance advance := by
  apply peek_twins.bind
  intro t t' ht
  rw [ht.isEnd]
  have skipped : Twins p.parsers (fun _ _ => True) (modify State.skip : Parser PUnit) (modify State.skip) :=
    Twins.modifyGet (fun _ _ _ => trivial) fun _ _ hs => skip_like hs
  exact .ite Iff.rfl (skipped.bind fun _ _ _ => .pure ht) (.pure ht)

theorem check_twins (kind : Token.Kind) : Twins p.parsers Eq (check kind) (check kind) := by
  apply peek_twins.bind
  intro t t' ht
  rw [ht.isEnd, ht.kind]
  exact .pure rfl

theorem accept_twins (kind : Token.Kind) : Twins p.parsers Eq (accept kind) (accept kind) := by
  apply (check_twins kind).bind
  rintro b _ rfl
  exact .ite Iff.rfl (advance_twins.bind fun _ _ _ => .pure rfl) (.pure rfl)

theorem report_twins {e e' : Located SyntaxError} (he : e.Like p.Line e') :
    Twins p.parsers (fun _ _ => True) (report e) (report e') := by
  apply Twins.modifyGet (fun _ _ _ => trivial)
  intro s s' hs
  exact ⟨hs.rest, List.rel_append hs.problems (.cons he .nil), hs.nextId⟩

theorem failHere_twins (what : Expected) : Twins p.parsers R (failHere what) (failHere what) := by
  apply peek_twins.bind
  intro t t' ht
  exact .throw fun _ _ hs => ⟨ht.located _, hs⟩

theorem expect_twins (kind : Token.Kind) (what : Expected) :
    Twins p.parsers (Token.Like p) (expect kind what) (expect kind what) := by
  apply (check_twins kind).bind
  rintro b _ rfl
  exact .ite Iff.rfl advance_twins (failHere_twins what)

theorem identifier_twins (what : Expected) :
    Twins p.parsers (Name.Like p.newTrees) (identifier what) (identifier what) :=
  (expect_twins .identifier what).bind fun _ _ ht => .pure ht.named

theorem freshId_twins : Twins p.parsers p.Fresh freshId freshId := by
  apply Twins.modifyGet
  · intro s s' hs
    exact hs.nextId
  · intro s s' hs
    obtain ⟨i, hi, hi'⟩ := hs.nextId
    exact ⟨hs.rest, hs.problems, i + 1, congrArg (· + 1) hi, congrArg (· + 1) hi'⟩

/-- A check of the next token, with what follows in either case. -/
theorem whether {test : Parser Bool} (ht : Twins p.parsers Eq test test) {x y : Parser α} {x' y' : Parser β}
    (hx : Twins p.parsers R x x') (hy : Twins p.parsers R y y') :
    Twins p.parsers R (do if ← test then x else y) (do if ← test then x' else y') := by
  apply ht.bind
  rintro b _ rfl
  exact .ite Iff.rfl hx hy

/-- A token that is expected, with what follows it. -/
theorem afterToken (kind : Token.Kind) (what : Expected) {x : Parser α} {x' : Parser β}
    (hx : Twins p.parsers R x x') :
    Twins p.parsers R (do let _ ← expect kind what; x) (do let _ ← expect kind what; x') :=
  (expect_twins kind what).bind fun _ _ _ => hx

theorem afterAny {x : Parser α} {x' : Parser β} (hx : Twins p.parsers R x x') :
    Twins p.parsers R (do let _ ← advance; x) (do let _ ← advance; x') :=
  advance_twins.bind fun _ _ _ => hx

/-! ## Lists -/

theorem itemsUntil_twins {stop : Parser Bool} (hstop : Twins p.parsers Eq stop stop) {item : Parser (Option α)}
    {item' : Parser (Option β)} (hitem : Twins p.parsers (Option.Rel R) item item') (n : Nat) :
    Twins p.parsers (List.Forall₂ R) (itemsUntil stop item n) (itemsUntil stop item' n) := by
  induction n with
  | zero => exact .pure .nil
  | succ n ih =>
    apply whether hstop (.pure .nil)
    apply hitem.bind
    intro first first' hfirst
    apply ih.bind
    intro others others' hothers
    apply Twins.pure
    cases hfirst with
    | none => exact hothers
    | some h => exact .cons h hothers

theorem commaSeparated_twins {item : Parser α} {item' : Parser β} (hitem : Twins p.parsers R item item')
    (list : Listed) (n count : Nat) :
    Twins p.parsers (List.Forall₂ R) (commaSeparated list item n count) (commaSeparated list item' n count) := by
  induction n generalizing count with
  | zero => exact .pure .nil
  | succ n ih =>
    have items : Twins p.parsers (List.Forall₂ R)
        (do
          let first ← item
          if ← accept (.symbol .comma) then
            return first :: (← commaSeparated list item n (count + 1))
          return [first])
        (do
          let first ← item'
          if ← accept (.symbol .comma) then
            return first :: (← commaSeparated list item' n (count + 1))
          return [first]) := by
      apply hitem.bind
      intro first first' hfirst
      apply whether (accept_twins _)
      · exact (ih (count + 1)).bind fun _ _ hothers => .pure (.cons hfirst hothers)
      · exact .pure (.cons hfirst .nil)
    apply Twins.ite Iff.rfl _ items
    apply peek_twins.bind
    intro t t' ht
    exact (report_twins (ht.located _)).bind fun _ _ _ => items

theorem listUntil_twins {item : Parser α} {item' : Parser β} (hitem : Twins p.parsers R item item')
    (closing : Symbol) (list : Listed) :
    Twins p.parsers (List.Forall₂ R) (listUntil closing list item) (listUntil closing list item') := by
  apply whether (check_twins _) (.pure .nil)
  apply remaining_twins.bind
  rintro n _ rfl
  exact commaSeparated_twins hitem list n 0

/-! ## Expressions -/

variable {expression expression' : Parser Expr}
  (h : Twins p.parsers (Expr.Like p.newTrees) expression expression')

include h

theorem chain_twins (tier : Tier) (n : Nat) {e e' : Expr} (he : e.Like p.newTrees e') :
    Twins p.parsers (Expr.Like p.newTrees) (chain tier expression n e) (chain tier expression' n e') := by
  induction n generalizing e e' with
  | zero => exact .pure he
  | succ n ih =>
    apply peek_twins.bind
    intro t t' ht
    rw [ht.kind]
    split
    · exact .pure he
    · next op _ =>
      apply afterAny
      apply h.bind
      intro right right' hright
      apply ih
      cases op with
      | binary op => exact .binary he ht.line hright
      | logical op => exact .logical he ht.line hright

theorem tiered_twins (tiers : List Tier) :
    Twins p.parsers (Expr.Like p.newTrees) (tiered expression tiers) (tiered expression' tiers) := by
  induction tiers with
  | nil => exact h
  | cons tier tighter ih =>
    apply ih.bind
    intro left left' hleft
    apply remaining_twins.bind
    rintro n _ rfl
    exact chain_twins ih tier n hleft

theorem primary_twins :
    Twins p.parsers (Expr.Like p.newTrees) (primary expression) (primary expression') := by
  apply peek_twins.bind
  intro t t' ht
  have literal (v : Literal) : Twins p.parsers (Expr.Like p.newTrees) (do let _ ← advance; return .literal v)
      (do let _ ← advance; return .literal v) := afterAny (.pure (.literal v))
  rw [ht.kind]
  split
  iterate 5 exact literal _
  · apply afterAny
    apply afterToken
    apply (identifier_twins _).bind
    intro method method' hmethod
    exact freshId_twins.bind fun _ _ hid => .pure (.super hid ht.line hmethod)
  · apply afterAny
    exact freshId_twins.bind fun _ _ hid => .pure (.this hid ht.line)
  · apply afterAny
    exact freshId_twins.bind fun _ _ hid => .pure (.variable ⟨hid, ht.named⟩)
  · apply afterAny
    apply h.bind
    intro inner inner' hinner
    exact afterToken _ _ (.pure (.group hinner))
  · apply afterAny
    apply (listUntil_twins h _ _).bind
    intro elements elements' helements
    exact afterToken _ _ (.pure (.array helements))
  · exact failHere_twins _

theorem suffixes_twins (n : Nat) {e e' : Expr} (he : e.Like p.newTrees e') :
    Twins p.parsers (Expr.Like p.newTrees) (suffixes expression n e) (suffixes expression' n e') := by
  induction n generalizing e e' with
  | zero => exact .pure he
  | succ n ih =>
    apply whether (accept_twins _)
    · apply (listUntil_twins h _ _).bind
      intro arguments arguments' harguments
      apply (expect_twins _ _).bind
      intro paren paren' hparen
      exact ih (.call he hparen.line harguments)
    · apply whether (accept_twins _) _ (.pure he)
      apply (identifier_twins _).bind
      intro property property' hproperty
      exact ih (.get he hproperty)

theorem unaryUpTo_twins (n : Nat) :
    Twins p.parsers (Expr.Like p.newTrees) (unaryUpTo expression n) (unaryUpTo expression' n) := by
  induction n with
  | zero => exact failHere_twins _
  | succ n ih =>
    apply peek_twins.bind
    intro t t' ht
    rw [ht.kind]
    split
    · apply (primary_twins h).bind
      intro first first' hfirst
      apply remaining_twins.bind
      rintro n _ rfl
      exact suffixes_twins h n hfirst
    · apply afterAny
      exact ih.bind fun _ _ he => .pure (.unary ht.line he)

theorem assignment_twins :
    Twins p.parsers (Expr.Like p.newTrees) (assignment expression) (assignment expression') := by
  have operand : Twins p.parsers (Expr.Like p.newTrees) (unary expression) (unary expression') := by
    apply remaining_twins.bind
    rintro n _ rfl
    exact unaryUpTo_twins h (n + 1)
  apply (tiered_twins operand tiers).bind
  intro left left' hleft
  apply peek_twins.bind
  intro t t' ht
  apply whether (accept_twins _) _ (.pure hleft)
  apply h.bind
  intro value value' hvalue
  have refused : Twins p.parsers (Expr.Like p.newTrees)
      (do report (Located.atToken t .invalidTarget); return left)
      (do report (Located.atToken t' .invalidTarget); return left') :=
    (report_twins (ht.located _)).bind fun _ _ _ => .pure hleft
  cases hleft with
  | «variable» hv => exact freshId_twins.bind fun _ _ hid => .pure (.assign ⟨hid, hv.name⟩ hvalue)
  | get ho hn => exact .pure (.set ho hn hvalue)
  | _ => exact refused

omit h in
theorem expressionUpTo_twins (n : Nat) :
    Twins p.parsers (Expr.Like p.newTrees) (expressionUpTo n) (expressionUpTo n) := by
  induction n with
  | zero => exact failHere_twins _
  | succ n ih => exact assignment_twins ih

omit h in
theorem expression_twins : Twins p.parsers (Expr.Like p.newTrees) Parser.expression Parser.expression := by
  apply remaining_twins.bind
  rintro n _ rfl
  exact expressionUpTo_twins (n + 1)

omit h in
theorem optionalExpression_twins (closing : Symbol) :
    Twins p.parsers (Option.Rel (Expr.Like p.newTrees)) (optionalExpression closing)
      (optionalExpression closing) :=
  whether (check_twins _) (.pure .none) (expression_twins.map fun _ _ he => .some he)

/-! ## Statements -/

omit h

/-- The parsers inside a statement yield like statements. -/
structure Nested.Alike (p : Pairing) (nested nested' : Nested) : Prop where
  statement : Twins p.parsers (Stmt.Like p.newTrees) nested.statement nested'.statement
  declaration : Twins p.parsers (Option.Rel (Stmt.Like p.newTrees)) nested.declaration nested'.declaration

/-- The relation between members of a class. -/
inductive Member.Like (p : Pairing) : Member → Member → Prop where
  | method {d d'} : d.Like p.newTrees d' → Like p (.method d) (.method d')
  | static {d d'} : d.Like p.newTrees d' → Like p (.static d) (.static d')

theorem atBrace_twins : Twins p.parsers Eq atBrace atBrace := by
  apply (check_twins _).bind
  rintro b _ rfl
  apply atEnd_twins.bind
  rintro e _ rfl
  exact .pure rfl

theorem initializer_twins : Twins p.parsers (Option.Rel (Expr.Like p.newTrees)) initializer initializer :=
  whether (accept_twins _) (expression_twins.map fun _ _ he => .some he) (.pure .none)

theorem letDeclaration_twins : Twins p.parsers (Stmt.Like p.newTrees) letDeclaration letDeclaration := by
  apply (identifier_twins _).bind
  intro name name' hname
  apply initializer_twins.bind
  intro value value' hvalue
  exact afterToken _ _ (.pure (.letDecl hname hvalue))

theorem constDeclaration_twins : Twins p.parsers (Stmt.Like p.newTrees) constDeclaration constDeclaration := by
  apply (identifier_twins _).bind
  intro name name' hname
  apply afterToken
  apply expression_twins.bind
  intro value value' hvalue
  exact afterToken _ _ (.pure (.constDecl hname hvalue))

theorem importStatement_twins {l l' : Nat} (hl : p.Line l l') :
    Twins p.parsers (Stmt.Like p.newTrees) (importStatement l) (importStatement l') := by
  apply peek_twins.bind
  intro t t' ht
  rw [ht.kind]
  split
  · exact afterAny (afterToken _ _ (.pure (.importFile _ hl)))
  · exact failHere_twins _

theorem expressionStatement_twins :
    Twins p.parsers (Stmt.Like p.newTrees) expressionStatement expressionStatement := by
  apply expression_twins.bind
  intro e e' he
  exact afterToken _ _ (.pure (.expression he))

theorem printStatement_twins : Twins p.parsers (Stmt.Like p.newTrees) printStatement printStatement := by
  apply expression_twins.bind
  intro e e' he
  exact afterToken _ _ (.pure (.print he))

theorem returnStatement_twins {l l' : Nat} (hl : p.Line l l') :
    Twins p.parsers (Stmt.Like p.newTrees) (returnStatement l) (returnStatement l') := by
  apply (optionalExpression_twins _).bind
  intro e e' he
  exact afterToken _ _ (.pure (.returnValue hl he))

theorem parenthesizedCondition_twins (opening : Expected) :
    Twins p.parsers (Expr.Like p.newTrees) (parenthesizedCondition opening) (parenthesizedCondition opening) := by
  apply afterToken
  apply expression_twins.bind
  intro e e' he
  exact afterToken _ _ (.pure he)

theorem forStart_twins : Twins p.parsers (Option.Rel (Stmt.Like p.newTrees)) forStart forStart := by
  apply whether (accept_twins _) (.pure .none)
  apply whether (accept_twins _)
  · exact letDeclaration_twins.map fun _ _ hs => .some hs
  · exact expressionStatement_twins.map fun _ _ hs => .some hs

section Nested

variable {nested nested' : Nested} (hn : nested.Alike p nested')

include hn

theorem block_twins :
    Twins p.parsers (List.Forall₂ (Stmt.Like p.newTrees)) (block nested) (block nested') := by
  apply remaining_twins.bind
  rintro n _ rfl
  apply (itemsUntil_twins atBrace_twins hn.declaration n).bind
  intro body body' hbody
  exact afterToken _ _ (.pure hbody)

theorem routine_twins (role : RoutineRole) :
    Twins p.parsers (Routine.Like p.newTrees) (routine nested role) (routine nested' role) := by
  apply (identifier_twins _).bind
  intro name name' hname
  apply afterToken
  apply (listUntil_twins (identifier_twins _) _ _).bind
  intro params params' hparams
  apply afterToken
  apply afterToken
  apply (block_twins hn).bind
  intro body body' hbody
  exact .pure (.mk hname hparams hbody)

theorem member_twins : Twins p.parsers (Member.Like p) (member nested) (member nested') := by
  apply whether (accept_twins _)
  · exact (routine_twins hn _).bind fun _ _ hd => .pure (.static hd)
  · exact (routine_twins hn _).bind fun _ _ hd => .pure (.method hd)

omit hn in
theorem members_like {ms ms' : List Member} (h : List.Forall₂ (Member.Like p) ms ms') :
    List.Forall₂ (Routine.Like p.newTrees) (ms.filterMap Member.method?) (ms'.filterMap Member.method?) ∧
      List.Forall₂ (Routine.Like p.newTrees) (ms.filterMap Member.static?) (ms'.filterMap Member.static?) := by
  constructor
  · apply List.rel_filterMap _ h
    intro m m' hm
    cases hm with
    | method hd => exact .some hd
    | static => exact .none
  · apply List.rel_filterMap _ h
    intro m m' hm
    cases hm with
    | method => exact .none
    | static hd => exact .some hd

omit hn in
theorem superclassClause_twins :
    Twins p.parsers (Option.Rel (Variable.Like p.newTrees)) superclassClause superclassClause := by
  apply whether (accept_twins _) _ (.pure .none)
  apply (identifier_twins _).bind
  intro name name' hname
  exact freshId_twins.bind fun _ _ hid => .pure (.some ⟨hid, hname⟩)

theorem classDeclaration_twins :
    Twins p.parsers (Stmt.Like p.newTrees) (classDeclaration nested) (classDeclaration nested') := by
  apply (identifier_twins _).bind
  intro name name' hname
  apply superclassClause_twins.bind
  intro superclass superclass' hsuperclass
  apply afterToken
  apply remaining_twins.bind
  rintro n _ rfl
  apply (itemsUntil_twins atBrace_twins ((member_twins hn).map fun _ _ hm => .some hm) n).bind
  intro ms ms' hms
  obtain ⟨methods, statics⟩ := members_like hms
  exact afterToken _ _ (.pure (.classDecl hname hsuperclass methods statics))

theorem forStatement_twins :
    Twins p.parsers (Stmt.Like p.newTrees) (forStatement nested) (forStatement nested') := by
  apply afterToken
  apply forStart_twins.bind
  intro start start' hstart
  apply (optionalExpression_twins _).bind
  intro condition condition' hcondition
  apply afterToken
  apply (optionalExpression_twins _).bind
  intro increment increment' hincrement
  apply afterToken
  apply hn.statement.bind
  intro body body' hbody
  have test : Expr.Like p.newTrees (condition.getD (.literal (.bool true)))
      (condition'.getD (.literal (.bool true))) := by
    cases hcondition with
    | none => exact .literal _
    | some he => exact he
  have loop := Stmt.Like.whileLoop test hbody hincrement
  cases hstart with
  | none => exact .pure loop
  | some hs => exact .pure (.block (.cons hs (.cons loop .nil)))

theorem ifStatement_twins :
    Twins p.parsers (Stmt.Like p.newTrees) (ifStatement nested) (ifStatement nested') := by
  apply (parenthesizedCondition_twins _).bind
  intro condition condition' hcondition
  apply hn.statement.bind
  intro body body' hbody
  apply whether (accept_twins _)
  · exact hn.statement.bind fun _ _ hother => .pure (.ifElse hcondition hbody hother)
  · exact .pure (.ifThen hcondition hbody)

theorem whileStatement_twins :
    Twins p.parsers (Stmt.Like p.newTrees) (whileStatement nested) (whileStatement nested') := by
  apply (parenthesizedCondition_twins _).bind
  intro condition condition' hcondition
  exact hn.statement.bind fun _ _ hbody => .pure (.whileLoop hcondition hbody .none)

theorem doWhileStatement_twins :
    Twins p.parsers (Stmt.Like p.newTrees) (doWhileStatement nested) (doWhileStatement nested') := by
  apply hn.statement.bind
  intro body body' hbody
  apply afterToken
  apply (parenthesizedCondition_twins _).bind
  intro condition condition' hcondition
  exact afterToken _ _ (.pure (.doWhile hbody hcondition))

theorem statementWith_twins :
    Twins p.parsers (Stmt.Like p.newTrees) (statementWith nested) (statementWith nested') := by
  apply peek_twins.bind
  intro t t' ht
  rw [ht.kind]
  split
  · exact afterAny (forStatement_twins hn)
  · exact afterAny (ifStatement_twins hn)
  · exact afterAny (whileStatement_twins hn)
  · exact afterAny (doWhileStatement_twins hn)
  · exact afterAny (returnStatement_twins ht.line)
  · exact afterAny (afterToken _ _ (.pure (.breakLoop ht.line)))
  · exact afterAny (afterToken _ _ (.pure (.continueLoop ht.line)))
  · exact afterAny ((block_twins hn).bind fun _ _ hbody => .pure (.block hbody))
  · exact afterAny printStatement_twins
  · exact expressionStatement_twins

theorem declarationBody_twins :
    Twins p.parsers (Stmt.Like p.newTrees) (declarationBody nested) (declarationBody nested') := by
  apply peek_twins.bind
  intro t t' ht
  rw [ht.kind]
  split
  · exact afterAny (classDeclaration_twins hn)
  · exact afterAny ((routine_twins hn _).bind fun _ _ hd => .pure (.function hd))
  · exact afterAny letDeclaration_twins
  · exact afterAny constDeclaration_twins
  · exact afterAny (importStatement_twins ht.line)
  · exact statementWith_twins hn

/-! ## Errors -/

omit hn in
theorem skipToStatement_twins {t t' : Token} (ht : t.Like p t') (n : Nat) :
    Twins p.parsers (fun _ _ => True) (skipToStatement t n) (skipToStatement t' n) := by
  induction n generalizing t t' with
  | zero => exact .pure trivial
  | succ n ih =>
    apply peek_twins.bind
    intro u u' hu
    rw [hu.isEnd, hu.kind, ht.kind]
    exact .ite Iff.rfl (.pure trivial) (afterAny (ih hu))

omit hn in
theorem synchronize_twins : Twins p.parsers (fun _ _ => True) synchronize synchronize := by
  apply advance_twins.bind
  intro t t' ht
  apply remaining_twins.bind
  rintro n _ rfl
  exact skipToStatement_twins ht n

theorem declarationWith_twins :
    Twins p.parsers (Option.Rel (Stmt.Like p.newTrees)) (declarationWith nested) (declarationWith nested') := by
  apply Twins.tryCatch ((declarationBody_twins hn).map fun _ _ hs => .some hs)
  rintro e e' s s' ⟨he, hs⟩
  have goOn : Twins p.parsers (Option.Rel (Stmt.Like p.newTrees))
      (do report e; synchronize; return none) (do report e'; synchronize; return none) :=
    (report_twins he).bind fun _ _ _ => synchronize_twins.bind fun _ _ _ => .pure .none
  exact goOn s s' hs

end Nested

theorem nested_twins (n : Nat) :
    Twins p.parsers (Stmt.Like p.newTrees) (statementUpTo n) (statementUpTo n) ∧
      Twins p.parsers (Option.Rel (Stmt.Like p.newTrees)) (declarationUpTo n) (declarationUpTo n) := by
  induction n with
  | zero => exact ⟨failHere_twins _, failHere_twins _⟩
  | succ n ih =>
    have inside : Nested.Alike p ⟨statementUpTo n, declarationUpTo n⟩ ⟨statementUpTo n, declarationUpTo n⟩ :=
      ⟨ih.1, ih.2⟩
    exact ⟨statementWith_twins inside, declarationWith_twins inside⟩

theorem program_twins : Twins p.parsers (List.Forall₂ (Stmt.Like p.newTrees)) program program := by
  have declaration : Twins p.parsers (Option.Rel (Stmt.Like p.newTrees)) declaration declaration := by
    apply remaining_twins.bind
    rintro n _ rfl
    exact (nested_twins (n + 1)).2
  apply remaining_twins.bind
  rintro n _ rfl
  exact itemsUntil_twins atEnd_twins declaration n

end Parser

/-- Two parses with like results. -/
structure Parse.Like (p : Pairing) (r r' : Parse) : Prop where
  statements : List.Forall₂ (Stmt.Like p.newTrees) r.statements r'.statements
  problems : List.Forall₂ (Located.Like p.Line) r.problems r'.problems
  nextId : p.Fresh r.nextId r'.nextId

/-- Like tokens are parsed alike. -/
theorem Parse.ofTokens_like {ts ts' : List Token} (ht : List.Forall₂ (Token.Like p) ts ts') {next next' : NodeId}
    (hn : p.Fresh next next') : (Parse.ofTokens next ts).Like p (Parse.ofTokens next' ts') := by
  have start : Parser.State.Like p (.ofTokens ts next) (.ofTokens ts' next') := ⟨ht, .nil, hn⟩
  unfold Parse.ofTokens
  dsimp only [EStateM.run]
  obtain ⟨ss, ss', s, s', hr, hr', hss, hs⟩ | ⟨e, e', s, s', hr, hr', he, hs⟩ :=
    (Parser.program_twins _ _ start).cases
  · rw [hr, hr']
    exact ⟨hss, hs.problems, hs.nextId⟩
  · rw [hr, hr']
    exact ⟨.nil, List.rel_append hs.problems (.cons he .nil), hs.nextId⟩

theorem Parse.Like.hadError {r r' : Parse} (h : r.Like p r') : r'.hadError = r.hadError := by
  have problems := h.problems
  unfold Parse.hadError
  cases hr : r.problems with
  | nil =>
    rw [hr] at problems
    rw [List.forall₂_nil_left_iff.1 problems]
  | cons e es =>
    rw [hr] at problems
    obtain ⟨e', es', -, -, hr'⟩ := List.forall₂_cons_left_iff.1 problems
    rw [hr']
    rfl

end Scriptlet
