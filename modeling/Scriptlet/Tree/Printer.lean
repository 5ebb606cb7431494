import Scriptlet.Number.Layout
import Scriptlet.Tree.Basic

/-!
# Printed trees

Trees are written in parentheses with the operator first: `(+ 1.0 (group x))`. Bodies are written inline.
-/
namespace Scriptlet

def UnaryOp.text : UnaryOp → String
  | .negate => "-"
  | .not => "!"

def BinaryOp.text : BinaryOp → String
  | .add => "+"
  | .subtract => "-"
  | .multiply => "*"
  | .divide => "/"
  | .modulo => "%"
  | .power => "^"
  | .shiftLeft => "<<"
  | .shiftRight => ">>"
  | .less => "<"
  | .lessEqual => "<="
  | .greater => ">"
  | .greaterEqual => ">="
  | .equal => "=="
  | .notEqual => "!="

def Connective.text : Connective → String
  | .and => "and"
  | .or => "or"
  | .xor => "xor"
  | .nor => "nor"
  | .nand => "nand"

def Literal.text : Literal → String
  | .number x => Number.treeText x
  | .bool b => if b then "true" else "false"
  | .null => "null"
  | .string s => s

/-- Parts between parentheses, one blank apart. -/
def parenthesized (parts : List String) : String := "(" ++ " ".intercalate parts ++ ")"

mutual

def Expr.render : Expr → String
  | .literal v => v.text
  | .group e => parenthesized ["group", e.render]
  | .unary op _ e => parenthesized [op.text, e.render]
  | .binary l op _ r => parenthesized [op.text, l.render, r.render]
  | .logical l op _ r => parenthesized [op.text, l.render, r.render]
  | .variable v => v.name.text
  | .assign v e => parenthesized ["=", v.name.text, e.render]
  | .this .. => "this"
  | .super _ _ m => parenthesized ["super", m.text]
  | .call f _ args => parenthesized ("call" :: f.render :: Expr.renderAll args)
  | .get o p => parenthesized [".", o.render, p.text]
  | .set o p e => parenthesized ["=", parenthesized [".", o.render, p.text], e.render]
  | .array es => "Array [" ++ ", ".intercalate (Expr.renderAll es) ++ "]"

def Expr.renderAll : List Expr → List String
  | [] => []
  | e :: es => e.render :: Expr.renderAll es

end

/-- Statements between braces. -/
def braced (parts : List String) : String :=
  if parts.isEmpty then "\x7b\x7d" else "\x7b " ++ " ".intercalate parts ++ " \x7d"

mutual

def Stmt.render : Stmt → String
  | .expression e => e.render
  | .print e => parenthesized ["print", e.render]
  | .letDecl x init => parenthesized ("let" :: x.text :: init.toList.map Expr.render)
  | .constDecl x init => parenthesized ["const", x.text, init.render]
  | .block body => braced (Stmt.renderAll body)
  | .ifThen c t => parenthesized ["if", c.render, t.render]
  | .ifElse c t e => parenthesized ["if", c.render, t.render, e.render]
  | .whileLoop c body inc => parenthesized ("while" :: c.render :: body.render :: inc.toList.map Expr.render)
  | .doWhile body c => parenthesized ["do", body.render, c.render]
  | .function d => Stmt.renderRoutine d
  | .classDecl x sup methods statics =>
    parenthesized ("class" :: x.text ::
      ((sup.toList.map (": " ++ ·.name.text)) ++
        statics.map (parenthesized ["static", ·.name.text]) ++
        methods.map (·.name.text)))
  | .returnValue _ e => parenthesized ("return" :: e.toList.map Expr.render)
  | .breakLoop _ => "(break)"
  | .continueLoop _ => "(continue)"
  | .importFile _ path => "(import \"" ++ path ++ "\")"

def Stmt.renderAll : List Stmt → List String
  | [] => []
  | s :: ss => s.render :: Stmt.renderAll ss

def Stmt.renderRoutine : FunctionDecl → String
  | ⟨name, params, body⟩ =>
    parenthesized ["fun", name.text, parenthesized (params.map (·.text)), braced (Stmt.renderAll body)]

end

end Scriptlet
