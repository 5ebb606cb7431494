import Scriptlet.Tree.Parser.Expression

/-!
# Parsing statements

An error unwinds to the declaration it lies in, which reports it and skips to the next likely start of a
statement; parsing then goes on.
-/
namespace Scriptlet.Parser

/-- The parsers for what stands inside a statement. -/
structure Nested where
  statement : Parser Stmt
  declaration : Parser (Option Stmt)

/-- What is in braces goes on up to the closing brace, or to the end of the input. -/
def atBrace : Parser Bool := do return (← check (.symbol .rightBrace)) || (← atEnd)

/-- What follows the opening brace of a block. -/
def block (nested : Nested) : Parser (List Stmt) := do
  let body ← itemsUntil atBrace nested.declaration (← remaining)
  let _ ← symbol .rightBrace .braceAfterBlock
  return body

def routine (nested : Nested) (role : RoutineRole) : Parser FunctionDecl := do
  let name ← identifier (.routineName role)
  let _ ← symbol .leftParen (.parenAfterRoutineName role)
  let params ← listUntil .rightParen .parameters (identifier .parameterName)
  let _ ← symbol .rightParen .parenAfterParameters
  let _ ← symbol .leftBrace (.braceBeforeBody role)
  let body ← block nested
  return ⟨name, params, body⟩

/-- A member of a class: a static method or a method. -/
inductive Member where
  | method (declaration : FunctionDecl)
  | static (declaration : FunctionDecl)

def Member.method? : Member → Option FunctionDecl
  | .method d => some d
  | .static _ => none

def Member.static? : Member → Option FunctionDecl
  | .method _ => none
  | .static d => some d

def member (nested : Nested) : Parser Member := do
  if ← accept (.keyword .static) then
    return .static (← routine nested .staticMethod)
  return .method (← routine nested .method)

/-- The superclass behind a colon. -/
def superclassClause : Parser (Option Variable) := do
  if ← accept (.symbol .colon) then
    let name ← identifier .superclassName
    return some ⟨← freshId, name⟩
  return none

def classDeclaration (nested : Nested) : Parser Stmt := do
  let name ← identifier .className
  let superclass ← superclassClause
  let _ ← symbol .leftBrace .braceBeforeClassBody
  let members ← itemsUntil atBrace (some <$> member nested) (← remaining)
  let _ ← symbol .rightBrace .braceAfterClassBody
  return .classDecl name superclass (members.filterMap Member.method?) (members.filterMap Member.static?)

/-- The value behind an equals sign. -/
def initializer : Parser (Option Expr) := do
  if ← accept (.symbol .equal) then some <$> expression else return none

def letDeclaration : Parser Stmt := do
  let name ← identifier .variableName
  let value ← initializer
  let _ ← symbol .semicolon .semicolonAfterVariable
  return .letDecl name value

def constDeclaration : Parser Stmt := do
  let name ← identifier .constantName
  let _ ← symbol .equal .equalAfterConstant
  let initializer ← expression
  let _ ← symbol .semicolon .semicolonAfterConstant
  return .constDecl name initializer

def importStatement (line : Nat) : Parser Stmt := do
  match (← peek).kind with
  | .string path =>
    let _ ← advance
    let _ ← symbol .semicolon .semicolonAfterImport
    return .importFile line path
  | _ => failHere .importPath

def expressionStatement : Parser Stmt := do
  let e ← expression
  let _ ← symbol .semicolon .semicolonAfterExpression
  return .expression e

/-- An expression unless `closing` is next. -/
def optionalExpression (closing : Symbol) : Parser (Option Expr) := do
  if ← check (.symbol closing) then return none
  some <$> expression

/-- The first clause of a `for` with its semicolon. -/
def forStart : Parser (Option Stmt) := do
  if ← accept (.symbol .semicolon) then return none
  if ← accept (.keyword .let) then some <$> letDeclaration
  else some <$> expressionStatement

/-- A `for` is a `while` that carries its increment, in a block of its own if it has an initializer. -/
def forStatement (nested : Nested) : Parser Stmt := do
  let _ ← symbol .leftParen .parenAfterFor
  let start ← forStart
  let condition ← optionalExpression .semicolon
  let _ ← symbol .semicolon .semicolonAfterCondition
  let increment ← optionalExpression .rightParen
  let _ ← symbol .rightParen .parenAfterClauses
  let body ← nested.statement
  let loop := Stmt.whileLoop (condition.getD (.literal (.bool true))) body increment
  match start with
  | some s => return .block [s, loop]
  | none => return loop

def parenthesizedCondition (opening : Expected) : Parser Expr := do
  let _ ← symbol .leftParen opening
  let condition ← expression
  let _ ← symbol .rightParen .parenAfterCondition
  return condition

/-- An `else` belongs to the nearest `if`. -/
def ifStatement (nested : Nested) : Parser Stmt := do
  let condition ← parenthesizedCondition .parenAfterIf
  let thenBranch ← nested.statement
  if ← accept (.keyword .else) then
    return .ifElse condition thenBranch (← nested.statement)
  return .ifThen condition thenBranch

def whileStatement (nested : Nested) : Parser Stmt := do
  let condition ← parenthesizedCondition .parenAfterWhile
  let body ← nested.statement
  return .whileLoop condition body none

def doWhileStatement (nested : Nested) : Parser Stmt := do
  let body ← nested.statement
  let _ ← expect (.keyword .while) .whileAfterBody
  let condition ← parenthesizedCondition .parenAfterWhile
  let _ ← symbol .semicolon .semicolonAfterDoWhile
  return .doWhile body condition

def printStatement : Parser Stmt := do
  let value ← expression
  let _ ← symbol .semicolon .semicolonAfterValue
  return .print value

def returnStatement (line : Nat) : Parser Stmt := do
  let value ← optionalExpression .semicolon
  let _ ← symbol .semicolon .semicolonAfterReturn
  return .returnValue line value

def statementWith (nested : Nested) : Parser Stmt := do
  let t ← peek
  match t.kind with
  | .keyword .for =>
    let _ ← advance
    forStatement nested
  | .keyword .if =>
    let _ ← advance
    ifStatement nested
  | .keyword .while =>
    let _ ← advance
    whileStatement nested
  | .keyword .do =>
    let _ ← advance
    doWhileStatement nested
  | .keyword .return =>
    let _ ← advance
    returnStatement t.line
  | .keyword .break =>
    let _ ← advance
    let _ ← symbol .semicolon .semicolonAfterBreak
    return .breakLoop t.line
  | .keyword .continue =>
    let _ ← advance
    let _ ← symbol .semicolon .semicolonAfterContinue
    return .continueLoop t.line
  | .symbol .leftBrace =>
    let _ ← advance
    return .block (← block nested)
  | .keyword .print =>
    let _ ← advance
    printStatement
  | _ => expressionStatement

/-- Keywords at which a statement is likely to start. -/
def startsStatement : Token.Kind → Bool
  | .keyword .classWord | .keyword .fun | .keyword .let | .keyword .const | .keyword .for | .keyword .if
  | .keyword .while | .keyword .do | .keyword .print | .keyword .return | .keyword .import => true
  | _ => false

/-- Skips to behind a semicolon or to before a likely start of a statement. `last` was read last. -/
def skipToStatement (last : Token) : Nat → Parser Unit
  | 0 => return ()
  | n + 1 => do
    let t ← peek
    if t.isEnd || last.kind == .symbol .semicolon || startsStatement t.kind then return ()
    let _ ← advance
    skipToStatement t n

/-- Goes on after an error: the token at fault is skipped in any case. -/
def synchronize : Parser Unit := do
  let last ← advance
  skipToStatement last (← remaining)

def declarationBody (nested : Nested) : Parser Stmt := do
  let t ← peek
  match t.kind with
  | .keyword .classWord =>
    let _ ← advance
    classDeclaration nested
  | .keyword .fun =>
    let _ ← advance
    return .function (← routine nested .function)
  | .keyword .let =>
    let _ ← advance
    letDeclaration
  | .keyword .const =>
    let _ ← advance
    constDeclaration
  | .keyword .import =>
    let _ ← advance
    importStatement t.line
  | _ => statementWith nested

/-- A declaration or statement; `none` after an error. -/
def declarationWith (nested : Nested) : Parser (Option Stmt) :=
  tryCatch (some <$> declarationBody nested) fun problem => do
    report problem
    synchronize
    return none

mutual

def statementUpTo : Nat → Parser Stmt
  | 0 => failHere .expression
  | n + 1 => statementWith ⟨statementUpTo n, declarationUpTo n⟩

def declarationUpTo : Nat → Parser (Option Stmt)
  | 0 => failHere .expression
  | n + 1 => declarationWith ⟨statementUpTo n, declarationUpTo n⟩

end

def declaration : Parser (Option Stmt) := do declarationUpTo ((← remaining) + 1)

def program : Parser (List Stmt) := do itemsUntil atEnd declaration (← remaining)

end Scriptlet.Parser
