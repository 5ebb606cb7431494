import Scriptlet.Tree.Parser.Basic

/-!
# Parsing expressions

Operands are joined by the operators of eleven tiers, all of them left-associative.
-/
namespace Scriptlet.Parser

/-- An operator between two operands. -/
inductive Infix where
  | binary (op : BinaryOp)
  | logical (op : Connective)
  deriving DecidableEq, Repr

def Infix.join (op : Infix) (line : Nat) (left right : Expr) : Expr :=
  match op with
  | .binary op => .binary left op line right
  | .logical op => .logical left op line right

/-- Operators that bind equally strongly, with their tokens. -/
abbrev Tier := List (Token.Kind × Infix)

/-- The tiers from the loosest to the tightest. All are left-associative. -/
def tiers : List Tier :=
  [ [(.keyword .or, .logical .or)],
    [(.keyword .and, .logical .and)],
    [(.keyword .xor, .logical .xor)],
    [(.keyword .nor, .logical .nor)],
    [(.keyword .nand, .logical .nand)],
    [(.symbol .bangEqual, .binary .notEqual), (.symbol .equalEqual, .binary .equal)],
    [(.symbol .greater, .binary .greater), (.symbol .greaterEqual, .binary .greaterEqual),
      (.symbol .less, .binary .less), (.symbol .lessEqual, .binary .lessEqual)],
    [(.symbol .shiftLeft, .binary .shiftLeft), (.symbol .shiftRight, .binary .shiftRight)],
    [(.symbol .minus, .binary .subtract), (.symbol .plus, .binary .add)],
    [(.symbol .slash, .binary .divide), (.symbol .star, .binary .multiply),
      (.symbol .modulo, .binary .modulo)],
    [(.symbol .exponent, .binary .power)] ]

/-- Joins further operands of one tier to `left`. -/
def chain (tier : Tier) (operand : Parser Expr) : Nat → Expr → Parser Expr
  | 0, left => return left
  | n + 1, left => do
    let t ← peek
    match tier.lookup t.kind with
    | none => return left
    | some op =>
      let _ ← advance
      let right ← operand
      chain tier operand n (op.join t.line left right)

/-- An expression of the given tiers over `operand`. -/
def tiered (operand : Parser Expr) : List Tier → Parser Expr
  | [] => operand
  | tier :: tighter => do
    let left ← tiered operand tighter
    chain tier (tiered operand tighter) (← remaining) left

def signs : List (Token.Kind × UnaryOp) := [(.symbol .bang, .not), (.symbol .minus, .negate)]

/-- Names, literals, parentheses and array literals. -/
def primary (expression : Parser Expr) : Parser Expr := do
  let t ← peek
  match t.kind with
  | .keyword .false =>
    let _ ← advance
    return .literal (.bool false)
  | .keyword .true =>
    let _ ← advance
    return .literal (.bool true)
  | .keyword .null =>
    let _ ← advance
    return .literal .null
  | .number x =>
    let _ ← advance
    return .literal (.number x)
  | .string s =>
    let _ ← advance
    return .literal (.string s)
  | .keyword .super =>
    let _ ← advance
    let _ ← symbol .dot .dotAfterSuper
    let method ← identifier .superclassMethod
    return .super (← freshId) t.line method
  | .keyword .this =>
    let _ ← advance
    return .this (← freshId) t.line
  | .identifier =>
    let _ ← advance
    return .variable ⟨← freshId, t.lexeme, t.line⟩
  | .symbol .leftParen =>
    let _ ← advance
    let inner ← expression
    let _ ← symbol .rightParen .parenAfterExpression
    return .group inner
  | .symbol .leftBracket =>
    let _ ← advance
    let elements ← listUntil .rightBracket .elements expression
    let _ ← symbol .rightBracket .bracketAfterElements
    return .array elements
  | _ => failHere .expression

/-- Calls and property reads after a primary expression. -/
def suffixes (expression : Parser Expr) : Nat → Expr → Parser Expr
  | 0, e => return e
  | n + 1, e => do
    if ← accept (.symbol .leftParen) then
      let arguments ← listUntil .rightParen .arguments expression
      let paren ← symbol .rightParen .parenAfterArguments
      suffixes expression n (.call e paren.line arguments)
    else if ← accept (.symbol .dot) then
      let property ← identifier .propertyName
      suffixes expression n (.get e property)
    else
      return e

/-- A primary expression with its suffixes. -/
def call (expression : Parser Expr) : Parser Expr := do
  let first ← primary expression
  suffixes expression (← remaining) first

def unaryUpTo (expression : Parser Expr) : Nat → Parser Expr
  | 0 => failHere .expression
  | n + 1 => do
    let t ← peek
    match signs.lookup t.kind with
    | none => call expression
    | some op =>
      let _ ← advance
      return .unary op t.line (← unaryUpTo expression n)

/-- A call with the signs before it. -/
def unary (expression : Parser Expr) : Parser Expr := do unaryUpTo expression ((← remaining) + 1)

/-- An assignment or an expression of the tiers. A bad target is reported and its value dropped. -/
def assignment (expression : Parser Expr) : Parser Expr := do
  let left ← tiered (unary expression) tiers
  let t ← peek
  if ← accept (.symbol .equal) then
    let value ← expression
    match left with
    | .variable target => return .assign ⟨← freshId, target.name⟩ value
    | .get object property => return .set object property value
    | other =>
      report (Located.atToken t .invalidTarget)
      return other
  return left

def expressionUpTo : Nat → Parser Expr
  | 0 => failHere .expression
  | n + 1 => assignment (expressionUpTo n)

def expression : Parser Expr := do expressionUpTo ((← remaining) + 1)

end Scriptlet.Parser
