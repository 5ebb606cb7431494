/-!
# Syntax trees

Expressions and statements as the parser builds them. Nodes that name a variable carry an identity of
their own: the scope analysis records for it how far out the variable is bound.
-/
namespace Scriptlet

/-- Identity of a node that refers to a variable. -/
abbrev NodeId := Nat

/-- An identifier and the line it stands on. -/
structure Name where
  text : String
  line : Nat
  deriving DecidableEq, Repr

inductive UnaryOp where
  | negate
  | not
  deriving DecidableEq, Repr

inductive BinaryOp where
  | add
  | subtract
  | multiply
  | divide
  | modulo
  | power
  | shiftLeft
  | shiftRight
  | less
  | lessEqual
  | greater
  | greaterEqual
  | equal
  | notEqual
  deriving DecidableEq, Repr

inductive Connective where
  | and
  | or
  | xor
  | nor
  | nand
  deriving DecidableEq, Repr

inductive Literal where
  | number (value : Float)
  | bool (value : Bool)
  | null
  | string (content : String)
  deriving DecidableEq, Repr

/-- A use of a variable. -/
structure Variable where
  id : NodeId
  name : Name
  deriving DecidableEq, Repr

/-- Lines are those of the operator, the closing parenthesis of a call, or the keyword. -/
inductive Expr where
  | literal (value : Literal)
  | group (inner : Expr)
  | unary (op : UnaryOp) (line : Nat) (operand : Expr)
  | binary (left : Expr) (op : BinaryOp) (line : Nat) (right : Expr)
  | logical (left : Expr) (op : Connective) (line : Nat) (right : Expr)
  | variable (use : Variable)
  | assign (target : Variable) (value : Expr)
  | this (id : NodeId) (line : Nat)
  | super (id : NodeId) (line : Nat) (method : Name)
  | call (callee : Expr) (line : Nat) (arguments : List Expr)
  | get (object : Expr) (property : Name)
  | set (object : Expr) (property : Name) (value : Expr)
  | array (elements : List Expr)
  deriving Repr

/-- A named list of parameters with a body. -/
structure Routine (σ : Type) where
  name : Name
  params : List Name
  body : List σ
  deriving Repr

inductive Stmt where
  | expression (value : Expr)
  | print (value : Expr)
  | letDecl (name : Name) (initializer : Option Expr)
  | constDecl (name : Name) (initializer : Expr)
  | block (body : List Stmt)
  | ifThen (condition : Expr) (thenBranch : Stmt)
  | ifElse (condition : Expr) (thenBranch elseBranch : Stmt)
  /-- The increment runs after each turn of the body, also after `continue`. -/
  | whileLoop (condition : Expr) (body : Stmt) (increment : Option Expr)
  | doWhile (body : Stmt) (condition : Expr)
  | function (declaration : Routine Stmt)
  | classDecl (name : Name) (superclass : Option Variable) (methods statics : List (Routine Stmt))
  | returnValue (line : Nat) (value : Option Expr)
  | breakLoop (line : Nat)
  | continueLoop (line : Nat)
  | importFile (line : Nat) (path : String)
  deriving Repr

/-- A function, method or static method. -/
abbrev FunctionDecl := Routine Stmt

/-- Declarations bind a name in their scope; only they are taken over from an imported file. -/
def Stmt.isDeclaration : Stmt → Bool
  | .letDecl .. | .constDecl .. | .function _ | .classDecl .. | .importFile .. => true
  | _ => false

end Scriptlet
