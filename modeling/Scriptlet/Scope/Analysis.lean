import Scriptlet.Location
import Scriptlet.Scope.ScopeError
import Scriptlet.Table
import Scriptlet.Tree.Basic
import Std.Data.TreeMap

/-!
# Scope analysis

One walk over the tree with a stack of scopes. For every use of a name that some scope on the stack
declares, the number of scopes between the use and the nearest such scope is recorded under the identity
of the node. Names that no scope declares are global and get no record. The global scope is not on the
stack: it may be extended at any time, by a later text or an imported file.
-/
namespace Scriptlet

/-- The names of the receiver and of the superclass in scopes and frames. -/
def thisName : String := "this"

def superName : String := "super"

/-- The name of the method that initializes instances. -/
def initName : String := "init"

/-- How many scopes out a node's variable is bound, by node. -/
abbrev Distances := Std.TreeMap NodeId Nat

/-- The declared names of one scope. `false` marks a name whose initializer is being read. -/
abbrev Scope := Table Bool

namespace Analysis

/-- The nearest enclosing routine. -/
inductive RoutineKind where
  | none
  | function
  | method
  | initializer
  | staticMethod
  deriving DecidableEq, Repr

/-- The nearest enclosing class. -/
inductive ClassKind where
  | none
  | base
  | derived
  deriving DecidableEq, Repr

/-- What surrounds the node being looked at. -/
structure Surroundings where
  routine : RoutineKind
  classKind : ClassKind
  deriving DecidableEq, Repr

def Surroundings.outermost : Surroundings := ⟨.none, .none⟩

structure State where
  /-- Open scopes, innermost first. -/
  scopes : List Scope
  distances : Distances
  problems : List (Located ScopeError)

end Analysis

abbrev Analysis := StateM Analysis.State

namespace Analysis

def report (line : Nat) (lexeme : String) (problem : ScopeError) : Analysis Unit :=
  modify fun s => { s with problems := s.problems ++ [⟨line, .atLexeme lexeme, problem⟩] }

def openScope (scope : Scope) : Analysis Unit :=
  modify fun s => { s with scopes := scope :: s.scopes }

def closeScope : Analysis Unit :=
  modify fun s => { s with scopes := s.scopes.tail }

/-- Changes the innermost scope, if one is open. -/
def updateScope (f : Scope → Scope) : Analysis Unit :=
  modify fun s =>
    match s.scopes with
    | [] => s
    | scope :: outer => { s with scopes := f scope :: outer }

/-- What the innermost scope says of a name. -/
def innermost? (name : String) : Analysis (Option Bool) := do
  return (← get).scopes.head?.bind (·.find? name)

/-- Announces a name; until it is defined its value may not be read. -/
def declare (name : Name) : Analysis Unit := do
  let known ← innermost? name.text
  updateScope (·.insert name.text false)
  if known.isSome then report name.line name.text (.alreadyDeclared name.text)

def define (name : Name) : Analysis Unit := updateScope (·.insert name.text true)

/-- Number of scopes inside the nearest one that declares `name`. -/
def distance? (name : String) (scopes : List Scope) : Option Nat :=
  scopes.findIdx? (·.contains name)

/-- Records how far out `name` is bound. -/
def bind (id : NodeId) (name : String) : Analysis Unit :=
  modify fun s =>
    match distance? name s.scopes with
    | some d => { s with distances := s.distances.insert id d }
    | none => s

def readVariable (use : Variable) : Analysis Unit := do
  if (← innermost? use.name.text) == some false then
    report use.name.line use.name.text .ownInitializer
  bind use.id use.name.text

/-- The rule that a use of `this` breaks. -/
def thisProblem? (around : Surroundings) : Option ScopeError :=
  if around.classKind = .none then some .thisOutsideClass
  else if around.routine = .staticMethod then some .thisInStatic
  else none

/-- The rule that a use of `super` breaks. -/
def superProblem? (around : Surroundings) : Option ScopeError :=
  match around.classKind with
  | .none => some .superOutsideClass
  | .base => some .superWithoutSuperclass
  | .derived => if around.routine = .staticMethod then some .superInStatic else none

mutual

/-- The value of an assignment is visited before its target. -/
def visitExpr (around : Surroundings) : Expr → Analysis Unit
  | .literal _ => return ()
  | .group e => visitExpr around e
  | .unary _ _ e => visitExpr around e
  | .binary l _ _ r => do
    visitExpr around l
    visitExpr around r
  | .logical l _ _ r => do
    visitExpr around l
    visitExpr around r
  | .variable use => readVariable use
  | .assign target e => do
    visitExpr around e
    bind target.id target.name.text
  | .this id line =>
    match thisProblem? around with
    | some problem => report line thisName problem
    | none => bind id thisName
  | .super id line _ =>
    match superProblem? around with
    | some problem => report line superName problem
    | none => bind id superName
  | .call f _ args => do
    visitExpr around f
    visitExprs around args
  | .get o _ => visitExpr around o
  | .set o _ e => do
    visitExpr around e
    visitExpr around o
  | .array es => visitExprs around es

def visitExprs (around : Surroundings) : List Expr → Analysis Unit
  | [] => return ()
  | e :: es => do
    visitExpr around e
    visitExprs around es

end

def visitOptional (around : Surroundings) : Option Expr → Analysis Unit
  | none => return ()
  | some e => visitExpr around e

def declareParams : List Name → Analysis Unit
  | [] => return ()
  | p :: ps => do
    declare p
    define p
    declareParams ps

/-- A class is not its own superclass. Its methods see `super`. -/
def enterSuperclass (around : Surroundings) (name : Name) : Option Variable → Analysis Unit
  | none => return ()
  | some parent => do
    if parent.name.text = name.text then
      report parent.name.line parent.name.text .selfInheritance
    visitExpr around (.variable parent)
    openScope (Table.empty.insert superName true)

/-- What stands before the methods of a class: its name, its superclass, and the scopes of `super` and
`this`. -/
def enterClass (around : Surroundings) (name : Name) (superclass : Option Variable) : Analysis Unit := do
  declare name
  define name
  enterSuperclass around name superclass
  openScope (Table.empty.insert thisName true)

def leaveClass (superclass : Option Variable) : Analysis Unit := do
  closeScope
  if superclass.isSome then closeScope

def returnProblems (around : Surroundings) (line : Nat) (value : Option Expr) : Analysis Unit := do
  if around.routine = .none then
    report line "return" .returnOutsideFunction
  if value.isSome && around.routine = .initializer then
    report line "return" .returnFromInitializer

/-- The role of a method by its name. -/
def methodRoutine (name : Name) : RoutineKind :=
  if name.text = initName then .initializer else .method

def classOf (superclass : Option Variable) : ClassKind :=
  if superclass.isSome then .derived else .base

mutual

def visitStmt (around : Surroundings) : Stmt → Analysis Unit
  | .expression e => visitExpr around e
  | .print e => visitExpr around e
  | .letDecl name init => do
    declare name
    visitOptional around init
    define name
  | .constDecl name init => do
    declare name
    visitExpr around init
    define name
  | .block body => do
    openScope ∅
    visitStmts around body
    closeScope
  | .ifThen c t => do
    visitExpr around c
    visitStmt around t
  | .ifElse c t e => do
    visitExpr around c
    visitStmt around t
    visitStmt around e
  | .whileLoop c body inc => do
    visitExpr around c
    visitStmt around body
    visitOptional around inc
  | .doWhile body c => do
    visitStmt around body
    visitExpr around c
  | .function d => do
    declare d.name
    define d.name
    visitRoutine { around with routine := .function } d
  | .classDecl name superclass methods statics => do
    let inside := { around with classKind := classOf superclass }
    enterClass inside name superclass
    visitMethods inside methods
    -- static methods run in a frame without a receiver
    updateScope (·.erase thisName)
    visitStatics inside statics
    leaveClass superclass
  | .returnValue line value => do
    returnProblems around line value
    visitOptional around value
  | .breakLoop _ | .continueLoop _ | .importFile .. => return ()

def visitStmts (around : Surroundings) : List Stmt → Analysis Unit
  | [] => return ()
  | s :: ss => do
    visitStmt around s
    visitStmts around ss

/-- Parameters and body share one scope. -/
def visitRoutine (around : Surroundings) : FunctionDecl → Analysis Unit
  | ⟨_, params, body⟩ => do
    openScope ∅
    declareParams params
    visitStmts around body
    closeScope

def visitMethods (around : Surroundings) : List FunctionDecl → Analysis Unit
  | [] => return ()
  | d :: ds => do
    visitRoutine { around with routine := methodRoutine d.name } d
    visitMethods around ds

def visitStatics (around : Surroundings) : List FunctionDecl → Analysis Unit
  | [] => return ()
  | d :: ds => do
    if d.name.text = initName then report d.name.line d.name.text .staticInitializer
    visitRoutine { around with routine := .staticMethod } d
    visitStatics around ds

end

/-- Analyses the statements of one text, adding to the distances known so far. -/
def ofStatements (distances : Distances) (statements : List Stmt) : State :=
  ((visitStmts .outermost statements).run ⟨[], distances, []⟩).2

end Analysis

end Scriptlet
