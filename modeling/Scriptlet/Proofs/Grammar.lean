import Scriptlet.Tree.Parser.Expression
import Scriptlet.Tree.Printer

/-!
# The grammar

The productions of the language, each with the tree it stands for. They are written without regard to how the
parser works: repetitions of operators are left recursive, and whether an `else` may follow a statement is part
of what is derived.

    expression  → ( call "." )? IDENT "=" expression | level
    level       → tighter ( operator tighter )*            for each row of operators
    unary       → ( "!" | "-" ) unary | call
    call        → primary ( "(" arguments? ")" | "." IDENT )*
    primary     → literal | "this" | IDENT | "(" expression ")" | "[" arguments? "]" | "super" "." IDENT
-/
namespace Scriptlet

/-! ## Trees without identities -/

/-- The variable with its identity left out. -/
def Variable.bare (v : Variable) : Variable := ⟨0, v.name⟩

namespace Expr

mutual

/-- The tree with all identities left out. -/
def bare : Expr → Expr
  | .literal v => .literal v
  | .group e => .group (bare e)
  | .unary op line e => .unary op line (bare e)
  | .binary l op line r => .binary (bare l) op line (bare r)
  | .logical l op line r => .logical (bare l) op line (bare r)
  | .variable v => .variable v.bare
  | .assign v e => .assign v.bare (bare e)
  | .this _ line => .this 0 line
  | .super _ line m => .super 0 line m
  | .call f line es => .call (bare f) line (listBare es)
  | .get o p => .get (bare o) p
  | .set o p e => .set (bare o) p (bare e)
  | .array es => .array (listBare es)

def listBare : List Expr → List Expr
  | [] => []
  | e :: es => bare e :: listBare es

end

end Expr

namespace Stmt

mutual

/-- The tree with all identities left out. -/
def bare : Stmt → Stmt
  | .expression e => .expression e.bare
  | .print e => .print e.bare
  | .letDecl name init => .letDecl name (init.map Expr.bare)
  | .constDecl name e => .constDecl name e.bare
  | .block body => .block (listBare body)
  | .ifThen c t => .ifThen c.bare (bare t)
  | .ifElse c t e => .ifElse c.bare (bare t) (bare e)
  | .whileLoop c body inc => .whileLoop c.bare (bare body) (inc.map Expr.bare)
  | .doWhile body c => .doWhile (bare body) c.bare
  | .function d => .function (routineBare d)
  | .classDecl name superclass methods statics =>
    .classDecl name (superclass.map Variable.bare) (routinesBare methods) (routinesBare statics)
  | .returnValue line e => .returnValue line (e.map Expr.bare)
  | .breakLoop line => .breakLoop line
  | .continueLoop line => .continueLoop line
  | .importFile line path => .importFile line path

def listBare : List Stmt → List Stmt
  | [] => []
  | s :: ss => bare s :: listBare ss

def routineBare : FunctionDecl → FunctionDecl
  | ⟨name, params, body⟩ => ⟨name, params, listBare body⟩

def routinesBare : List FunctionDecl → List FunctionDecl
  | [] => []
  | d :: ds => routineBare d :: routinesBare ds

end

end Stmt

/-! ## Terminals -/

/-- How a word or a symbol is written. -/
def Token.Kind.spelling? : Token.Kind → Option String
  | .symbol s => some s.text
  | .keyword k => some k.text
  | _ => none

/-- The token is the word or the symbol that is written so. -/
def Token.Spells (t : Token) (text : String) : Prop := t.kind.spelling? = some text

/-- The identifier that a token holds. -/
def Token.name (t : Token) : Name := ⟨t.lexeme, t.line⟩

/-- The literal that a token is. -/
def Token.Kind.literal? : Token.Kind → Option Scriptlet.Literal
  | .number x => some (.number x)
  | .string s => some (.string s)
  | .keyword .true => some (.bool true)
  | .keyword .false => some (.bool false)
  | .keyword .null => some .null
  | _ => none

def Parser.Infix.text : Parser.Infix → String
  | .binary op => op.text
  | .logical op => op.text

namespace Grammar

/-- The operators between two operands, those that bind loosest first. -/
def levels : List (List String) :=
  [["or"], ["and"], ["xor"], ["nor"], ["nand"], ["!=", "=="], [">", ">=", "<", "<="], ["<<", ">>"],
    ["-", "+"], ["/", "*", "%"], ["^"]]

/-- The longest list of parameters, arguments or elements. -/
def longest : Nat := 255

/-! ## Expressions -/

/-- What is derived in an expression, with its tree. -/
inductive Phrase where
  | expression (e : Expr)
  /-- Operands with operators of these levels between them. -/
  | level (levels : List (List String)) (e : Expr)
  | unary (e : Expr)
  | call (e : Expr)
  | primary (e : Expr)
  /-- Arguments or elements, with commas between them. -/
  | arguments (es : List Expr)

/-- The tokens are derived from the phrase. Any identities may stand in the tree. -/
inductive Derives : Phrase → List Token → Prop where
  | assign {t equal : Token} {e : Expr} {ts : List Token} (id : NodeId) : t.kind = .identifier →
    equal.Spells "=" → Derives (.expression e) ts →
    Derives (.expression (.assign ⟨id, t.name⟩ e)) (t :: equal :: ts)
  | set {o e : Expr} {dot t equal : Token} {ts us : List Token} : Derives (.call o) ts → dot.Spells "." →
    t.kind = .identifier → equal.Spells "=" → Derives (.expression e) us →
    Derives (.expression (.set o t.name e)) (ts ++ dot :: t :: equal :: us)
  | value {e : Expr} {ts : List Token} : Derives (.level levels e) ts → Derives (.expression e) ts
  | operand {e : Expr} {ts : List Token} : Derives (.unary e) ts → Derives (.level [] e) ts
  | tighter {e : Expr} {level : List String} {rows : List (List String)} {ts : List Token} :
    Derives (.level rows e) ts → Derives (.level (level :: rows) e) ts
  /-- Operators of one level are left associative. -/
  | join {l r : Expr} {op : Parser.Infix} {t : Token} {level : List String} {rows : List (List String)}
    {ts us : List Token} : Derives (.level (level :: rows) l) ts → op.text ∈ level → t.Spells op.text →
    Derives (.level rows r) us → Derives (.level (level :: rows) (op.join t.line l r)) (ts ++ t :: us)
  | sign {op : UnaryOp} {t : Token} {e : Expr} {ts : List Token} : t.Spells op.text → Derives (.unary e) ts →
    Derives (.unary (.unary op t.line e)) (t :: ts)
  | unsigned {e : Expr} {ts : List Token} : Derives (.call e) ts → Derives (.unary e) ts
  | first {e : Expr} {ts : List Token} : Derives (.primary e) ts → Derives (.call e) ts
  | invoke {f : Expr} {es : List Expr} {opening closing : Token} {ts us : List Token} :
    Derives (.call f) ts → opening.Spells "(" → Derives (.arguments es) us → es.length ≤ longest →
    closing.Spells ")" → Derives (.call (.call f closing.line es)) (ts ++ opening :: (us ++ [closing]))
  | get {o : Expr} {dot t : Token} {ts : List Token} : Derives (.call o) ts → dot.Spells "." →
    t.kind = .identifier → Derives (.call (.get o t.name)) (ts ++ [dot, t])
  | literal {t : Token} {v : Literal} : t.kind.literal? = some v → Derives (.primary (.literal v)) [t]
  | this {t : Token} (id : NodeId) : t.Spells "this" → Derives (.primary (.this id t.line)) [t]
  | identifier {t : Token} (id : NodeId) : t.kind = .identifier →
    Derives (.primary (.variable ⟨id, t.name⟩)) [t]
  | group {e : Expr} {opening closing : Token} {ts : List Token} : opening.Spells "(" →
    Derives (.expression e) ts → closing.Spells ")" → Derives (.primary (.group e)) (opening :: (ts ++ [closing]))
  | array {es : List Expr} {opening closing : Token} {ts : List Token} : opening.Spells "[" →
    Derives (.arguments es) ts → es.length ≤ longest → closing.Spells "]" →
    Derives (.primary (.array es)) (opening :: (ts ++ [closing]))
  | super {t dot method : Token} (id : NodeId) : t.Spells "super" → dot.Spells "." →
    method.kind = .identifier → Derives (.primary (.super id t.line method.name)) [t, dot, method]
  | noArgument : Derives (.arguments []) []
  | lastArgument {e : Expr} {ts : List Token} : Derives (.expression e) ts → Derives (.arguments [e]) ts
  | argument {e : Expr} {es : List Expr} {comma : Token} {ts us : List Token} : Derives (.expression e) ts →
    comma.Spells "," → Derives (.arguments es) us → es ≠ [] →
    Derives (.arguments (e :: es)) (ts ++ comma :: us)

/-! ## Statements

    program     → declaration*
    declaration → classDecl | "fun" function | letDecl | constDecl | "import" STRING ";" | statement
    classDecl   → "class" IDENT ( ":" IDENT )? "{" ( "static"? function )* "}"
    function    → IDENT "(" parameters? ")" block
    letDecl     → "let" IDENT ( "=" expression )? ";"
    constDecl   → "const" IDENT "=" expression ";"
    statement   → exprStmt | for | if | while | do | "print" expression ";" | "return" expression? ";"
                | "break" ";" | "continue" ";" | block
    for         → "for" "(" ( letDecl | exprStmt | ";" ) expression? ";" expression? ")" statement
    block       → "{" declaration* "}"
-/

/-- An expression that may be missing. -/
inductive Optionally : Option Expr → List Token → Prop where
  | none : Optionally none []
  | some {e : Expr} {ts : List Token} : Derives (.expression e) ts → Optionally (some e) ts

/-- The value behind the name of a variable. -/
inductive Initial : Option Expr → List Token → Prop where
  | none : Initial none []
  | some {equal : Token} {e : Expr} {ts : List Token} : equal.Spells "=" → Derives (.expression e) ts →
    Initial (some e) (equal :: ts)

/-- The superclass behind the name of a class. -/
inductive Superclass : Option Variable → List Token → Prop where
  | none : Superclass none []
  | some {colon t : Token} (id : NodeId) : colon.Spells ":" → t.kind = .identifier →
    Superclass (some ⟨id, t.name⟩) [colon, t]

/-- An identifier alone. -/
inductive Identifier : Name → List Token → Prop where
  | mk {t : Token} : t.kind = .identifier → Identifier t.name [t]

/-- Items with commas between them. -/
inductive Separated {α : Type} (Item : α → List Token → Prop) : List α → List Token → Prop where
  | none : Separated Item [] []
  | last {a : α} {ts : List Token} : Item a ts → Separated Item [a] ts
  | more {a : α} {as : List α} {comma : Token} {ts us : List Token} : Item a ts → comma.Spells "," →
    Separated Item as us → as ≠ [] → Separated Item (a :: as) (ts ++ comma :: us)

/-- A `for` is a `while` that carries the increment, in a block if there is an initializer. -/
def forLoop (start : Option Stmt) (condition increment : Option Expr) (body : Stmt) : Stmt :=
  let loop := Stmt.whileLoop (condition.getD (.literal (.bool true))) body increment
  match start with
  | none => loop
  | some s => .block [s, loop]

/-- What is derived besides expressions, with its tree. -/
inductive Clause where
  | declarations (ss : List Stmt)
  | declaration (s : Stmt)
  /-- A statement is dangling if it ends in an `if` without `else`. -/
  | statement (dangling : Bool) (s : Stmt)
  | letDecl (s : Stmt)
  | exprStmt (s : Stmt)
  /-- The first part of a `for`. -/
  | start (s : Option Stmt)
  | function (d : FunctionDecl)
  /-- Methods and static methods of a class. -/
  | members (methods statics : List FunctionDecl)

/-- The tokens are derived from the clause. If `nearest`, every `else` belongs to the nearest `if` that it can
belong to; without this the grammar is ambiguous. -/
inductive Builds (nearest : Bool) : Clause → List Token → Prop where
  | noDeclaration : Builds nearest (.declarations []) []
  | declarations {s : Stmt} {ss : List Stmt} {ts us : List Token} : Builds nearest (.declaration s) ts →
    Builds nearest (.declarations ss) us → Builds nearest (.declarations (s :: ss)) (ts ++ us)
  | classDecl {word t opening closing : Token} {superclass : Option Variable}
    {methods statics : List FunctionDecl} {ts us : List Token} : word.Spells "class" →
    t.kind = .identifier → Superclass superclass ts → opening.Spells "\x7b" →
    Builds nearest (.members methods statics) us → closing.Spells "\x7d" →
    Builds nearest (.declaration (.classDecl t.name superclass methods statics))
      (word :: t :: (ts ++ opening :: (us ++ [closing])))
  | funDecl {word : Token} {d : FunctionDecl} {ts : List Token} : word.Spells "fun" →
    Builds nearest (.function d) ts → Builds nearest (.declaration (.function d)) (word :: ts)
  | variableDecl {s : Stmt} {ts : List Token} : Builds nearest (.letDecl s) ts →
    Builds nearest (.declaration s) ts
  | constDecl {word t equal semicolon : Token} {e : Expr} {ts : List Token} : word.Spells "const" →
    t.kind = .identifier → equal.Spells "=" → Derives (.expression e) ts → semicolon.Spells ";" →
    Builds nearest (.declaration (.constDecl t.name e)) (word :: t :: equal :: (ts ++ [semicolon]))
  | importStmt {word t semicolon : Token} {path : String} : word.Spells "import" → t.kind = .string path →
    semicolon.Spells ";" → Builds nearest (.declaration (.importFile word.line path)) [word, t, semicolon]
  | plain {dangling : Bool} {s : Stmt} {ts : List Token} : Builds nearest (.statement dangling s) ts →
    Builds nearest (.declaration s) ts
  | letDecl {word t semicolon : Token} {value : Option Expr} {ts : List Token} : word.Spells "let" →
    t.kind = .identifier → Initial value ts → semicolon.Spells ";" →
    Builds nearest (.letDecl (.letDecl t.name value)) (word :: t :: (ts ++ [semicolon]))
  | exprStmt {e : Expr} {semicolon : Token} {ts : List Token} : Derives (.expression e) ts →
    semicolon.Spells ";" → Builds nearest (.exprStmt (.expression e)) (ts ++ [semicolon])
  | function {t opening closing left right : Token} {params : List Name} {body : List Stmt}
    {ts us : List Token} : t.kind = .identifier → opening.Spells "(" → Separated Identifier params ts →
    params.length ≤ longest → closing.Spells ")" → left.Spells "\x7b" →
    Builds nearest (.declarations body) us → right.Spells "\x7d" →
    Builds nearest (.function ⟨t.name, params, body⟩)
      (t :: opening :: (ts ++ closing :: left :: (us ++ [right])))
  | noMember : Builds nearest (.members [] []) []
  | method {d : FunctionDecl} {methods statics : List FunctionDecl} {ts us : List Token} :
    Builds nearest (.function d) ts → Builds nearest (.members methods statics) us →
    Builds nearest (.members (d :: methods) statics) (ts ++ us)
  | staticMethod {word : Token} {d : FunctionDecl} {methods statics : List FunctionDecl}
    {ts us : List Token} : word.Spells "static" → Builds nearest (.function d) ts →
    Builds nearest (.members methods statics) us →
    Builds nearest (.members methods (d :: statics)) (word :: (ts ++ us))
  | expression {s : Stmt} {ts : List Token} : Builds nearest (.exprStmt s) ts →
    Builds nearest (.statement false s) ts
  | noStart {semicolon : Token} : semicolon.Spells ";" → Builds nearest (.start none) [semicolon]
  | letStart {s : Stmt} {ts : List Token} : Builds nearest (.letDecl s) ts → Builds nearest (.start (some s)) ts
  | exprStart {s : Stmt} {ts : List Token} : Builds nearest (.exprStmt s) ts →
    Builds nearest (.start (some s)) ts
  | forStmt {word opening semicolon closing : Token} {start : Option Stmt} {condition increment : Option Expr}
    {body : Stmt} {dangling : Bool} {ts us vs ws : List Token} : word.Spells "for" → opening.Spells "(" →
    Builds nearest (.start start) ts → Optionally condition us → semicolon.Spells ";" →
    Optionally increment vs → closing.Spells ")" → Builds nearest (.statement dangling body) ws →
    Builds nearest (.statement dangling (forLoop start condition increment body))
      (word :: opening :: (ts ++ (us ++ semicolon :: (vs ++ closing :: ws))))
  | ifThen {word opening closing : Token} {c : Expr} {s : Stmt} {dangling : Bool} {ts us : List Token} :
    word.Spells "if" → opening.Spells "(" → Derives (.expression c) ts → closing.Spells ")" →
    Builds nearest (.statement dangling s) us →
    Builds nearest (.statement true (.ifThen c s)) (word :: opening :: (ts ++ closing :: us))
  | ifElse {word opening closing other : Token} {c : Expr} {s t : Stmt} {inner dangling : Bool}
    {ts us vs : List Token} : word.Spells "if" → opening.Spells "(" → Derives (.expression c) ts →
    closing.Spells ")" → Builds nearest (.statement inner s) us → (nearest = true → inner = false) →
    other.Spells "else" → Builds nearest (.statement dangling t) vs →
    Builds nearest (.statement dangling (.ifElse c s t))
      (word :: opening :: (ts ++ closing :: (us ++ other :: vs)))
  | whileStmt {word opening closing : Token} {c : Expr} {s : Stmt} {dangling : Bool} {ts us : List Token} :
    word.Spells "while" → opening.Spells "(" → Derives (.expression c) ts → closing.Spells ")" →
    Builds nearest (.statement dangling s) us →
    Builds nearest (.statement dangling (.whileLoop c s none)) (word :: opening :: (ts ++ closing :: us))
  | doWhile {word again opening closing semicolon : Token} {c : Expr} {s : Stmt} {dangling : Bool}
    {ts us : List Token} : word.Spells "do" → Builds nearest (.statement dangling s) ts →
    again.Spells "while" → opening.Spells "(" → Derives (.expression c) us → closing.Spells ")" →
    semicolon.Spells ";" →
    Builds nearest (.statement false (.doWhile s c))
      (word :: (ts ++ again :: opening :: (us ++ [closing, semicolon])))
  | printStmt {word semicolon : Token} {e : Expr} {ts : List Token} : word.Spells "print" →
    Derives (.expression e) ts → semicolon.Spells ";" →
    Builds nearest (.statement false (.print e)) (word :: (ts ++ [semicolon]))
  | returnStmt {word semicolon : Token} {e : Option Expr} {ts : List Token} : word.Spells "return" →
    Optionally e ts → semicolon.Spells ";" →
    Builds nearest (.statement false (.returnValue word.line e)) (word :: (ts ++ [semicolon]))
  | breakStmt {word semicolon : Token} : word.Spells "break" → semicolon.Spells ";" →
    Builds nearest (.statement false (.breakLoop word.line)) [word, semicolon]
  | continueStmt {word semicolon : Token} : word.Spells "continue" → semicolon.Spells ";" →
    Builds nearest (.statement false (.continueLoop word.line)) [word, semicolon]
  | block {opening closing : Token} {body : List Stmt} {ts : List Token} : opening.Spells "\x7b" →
    Builds nearest (.declarations body) ts → closing.Spells "\x7d" →
    Builds nearest (.statement false (.block body)) (opening :: (ts ++ [closing]))

end Grammar

end Scriptlet
