/-!
# Syntax errors
-/
namespace Scriptlet

/-- The role in which a routine is declared. -/
inductive RoutineRole where
  | function
  | method
  | staticMethod
  deriving DecidableEq, Repr

def RoutineRole.text : RoutineRole → String
  | .function => "function"
  | .method => "method"
  | .staticMethod => "static method"

/-- What the grammar asks for at the place of an error. -/
inductive Expected where
  | className
  | superclassName
  | braceBeforeClassBody
  | braceAfterClassBody
  | routineName (role : RoutineRole)
  | parenAfterRoutineName (role : RoutineRole)
  | parameterName
  | parenAfterParameters
  | braceBeforeBody (role : RoutineRole)
  | variableName
  | semicolonAfterVariable
  | constantName
  | equalAfterConstant
  | semicolonAfterConstant
  | importPath
  | semicolonAfterImport
  | semicolonAfterBreak
  | semicolonAfterContinue
  | parenAfterFor
  | semicolonAfterCondition
  | parenAfterClauses
  | parenAfterIf
  | parenAfterCondition
  | parenAfterWhile
  | whileAfterBody
  | semicolonAfterDoWhile
  | semicolonAfterValue
  | semicolonAfterReturn
  | semicolonAfterExpression
  | braceAfterBlock
  | propertyName
  | parenAfterArguments
  | dotAfterSuper
  | superclassMethod
  | parenAfterExpression
  | bracketAfterElements
  | expression
  deriving DecidableEq, Repr

def Expected.text : Expected → String
  | .className => "class name"
  | .superclassName => "superclass name"
  | .braceBeforeClassBody => "'\x7b' before class body"
  | .braceAfterClassBody => "'\x7d' after class body"
  | .routineName role => role.text ++ " name"
  | .parenAfterRoutineName role => "'(' after " ++ role.text ++ " name"
  | .parameterName => "parameter name"
  | .parenAfterParameters => "')' after parameters"
  | .braceBeforeBody role => "'\x7b' before " ++ role.text ++ " body"
  | .variableName => "variable name"
  | .semicolonAfterVariable => "';' after variable declaration"
  | .constantName => "constant name"
  | .equalAfterConstant => "'=' after constant name"
  | .semicolonAfterConstant => "';' after constant declaration"
  | .importPath => "file path after 'import'"
  | .semicolonAfterImport => "';' after import path"
  | .semicolonAfterBreak => "';' after 'break'"
  | .semicolonAfterContinue => "';' after 'continue'"
  | .parenAfterFor => "'(' after 'for'"
  | .semicolonAfterCondition => "';' after loop condition"
  | .parenAfterClauses => "')' after for clauses"
  | .parenAfterIf => "'(' after 'if'"
  | .parenAfterCondition => "')' after condition"
  | .parenAfterWhile => "'(' after 'while'"
  | .whileAfterBody => "'while' after 'do' body"
  | .semicolonAfterDoWhile => "';' after do-while"
  | .semicolonAfterValue => "';' after value"
  | .semicolonAfterReturn => "';' after return value"
  | .semicolonAfterExpression => "';' after expression"
  | .braceAfterBlock => "'\x7d' after block"
  | .propertyName => "property name after '.'"
  | .parenAfterArguments => "')' after arguments"
  | .dotAfterSuper => "'.' after 'super'"
  | .superclassMethod => "superclass method name"
  | .parenAfterExpression => "')' after expression"
  | .bracketAfterElements => "']' after array elements"
  | .expression => "expression"

/-- Lists whose length is limited. -/
inductive Listed where
  | parameters
  | arguments
  | elements
  deriving DecidableEq, Repr

def Listed.text : Listed → String
  | .parameters => "parameters"
  | .arguments => "arguments"
  | .elements => "elements"

/-- The longest parameter, argument or element list. -/
def listLimit : Nat := 255

inductive SyntaxError where
  | expected (what : Expected)
  | tooMany (list : Listed)
  | invalidTarget
  deriving DecidableEq, Repr

def SyntaxError.message : SyntaxError → String
  | .expected what => "Expected " ++ what.text
  | .tooMany list => "Can't have more than " ++ toString listLimit ++ " " ++ list.text
  | .invalidTarget => "Invalid assignment target"

end Scriptlet
