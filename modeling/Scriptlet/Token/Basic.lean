/-!
# Tokens

A token is a symbol, a keyword, a name, a literal or the end of the input, with its text and the line on
which that text ends. Lines are counted from zero.
-/
namespace Scriptlet

/-- Punctuation and operators. -/
inductive Symbol where
  | leftParen
  | rightParen
  | leftBrace
  | rightBrace
  | leftBracket
  | rightBracket
  | comma
  | dot
  | minus
  | plus
  | semicolon
  | colon
  | slash
  | star
  | modulo
  | exponent
  | bang
  | bangEqual
  | equal
  | equalEqual
  | greater
  | greaterEqual
  | less
  | lessEqual
  | shiftLeft
  | shiftRight
  deriving DecidableEq, Repr

def Symbol.text : Symbol → String
  | .leftParen => "("
  | .rightParen => ")"
  | .leftBrace => "\x7b"
  | .rightBrace => "\x7d"
  | .leftBracket => "["
  | .rightBracket => "]"
  | .comma => ","
  | .dot => "."
  | .minus => "-"
  | .plus => "+"
  | .semicolon => ";"
  | .colon => ":"
  | .slash => "/"
  | .star => "*"
  | .modulo => "%"
  | .exponent => "^"
  | .bang => "!"
  | .bangEqual => "!="
  | .equal => "="
  | .equalEqual => "=="
  | .greater => ">"
  | .greaterEqual => ">="
  | .less => "<"
  | .lessEqual => "<="
  | .shiftLeft => "<<"
  | .shiftRight => ">>"

/-- The name of a symbol in token listings. -/
def Symbol.name : Symbol → String
  | .leftParen => "LEFT_PAREN"
  | .rightParen => "RIGHT_PAREN"
  | .leftBrace => "LEFT_BRACE"
  | .rightBrace => "RIGHT_BRACE"
  | .leftBracket => "LEFT_BRACKET"
  | .rightBracket => "RIGHT_BRACKET"
  | .comma => "COMMA"
  | .dot => "DOT"
  | .minus => "MINUS"
  | .plus => "PLUS"
  | .semicolon => "SEMICOLON"
  | .colon => "COLON"
  | .slash => "SLASH"
  | .star => "STAR"
  | .modulo => "MODULO"
  | .exponent => "EXPONENT"
  | .bang => "BANG"
  | .bangEqual => "BANG_EQUAL"
  | .equal => "EQUAL"
  | .equalEqual => "EQUAL_EQUAL"
  | .greater => "GREATER"
  | .greaterEqual => "GREATER_EQUAL"
  | .less => "LESS"
  | .lessEqual => "LESS_EQUAL"
  | .shiftLeft => "LSHIFT"
  | .shiftRight => "RSHIFT"

/-- Reserved words. -/
inductive Keyword where
  | and
  | or
  | xor
  | nor
  | nand
  | classWord
  | else
  | false
  | fun
  | for
  | if
  | null
  | print
  | return
  | super
  | this
  | true
  | let
  | const
  | while
  | do
  | break
  | continue
  | static
  | import
  deriving DecidableEq, Repr

def Keyword.text : Keyword → String
  | .and => "and"
  | .or => "or"
  | .xor => "xor"
  | .nor => "nor"
  | .nand => "nand"
  | .classWord => "class"
  | .else => "else"
  | .false => "false"
  | .fun => "fun"
  | .for => "for"
  | .if => "if"
  | .null => "null"
  | .print => "print"
  | .return => "return"
  | .super => "super"
  | .this => "this"
  | .true => "true"
  | .let => "let"
  | .const => "const"
  | .while => "while"
  | .do => "do"
  | .break => "break"
  | .continue => "continue"
  | .static => "static"
  | .import => "import"

def Keyword.all : List Keyword :=
  [.and, .or, .xor, .nor, .nand, .classWord, .else, .false, .fun, .for, .if, .null, .print, .return, .super,
    .this, .true, .let, .const, .while, .do, .break, .continue, .static, .import]

theorem Keyword.mem_all (k : Keyword) : k ∈ Keyword.all := by
  cases k <;> decide

/-- The keyword spelled by a word, if the word is reserved. -/
def Keyword.ofText? (word : String) : Option Keyword :=
  Keyword.all.find? (·.text == word)

/-- The name of a keyword in token listings: its capitals. -/
def Keyword.name (k : Keyword) : String := k.text.map Char.toUpper

namespace Token

inductive Kind where
  | symbol (symbol : Symbol)
  | keyword (keyword : Keyword)
  | identifier
  | string (content : String)
  | number (value : Float)
  | endOfInput
  deriving DecidableEq, Repr

end Token

structure Token where
  kind : Token.Kind
  lexeme : String
  /-- The line on which the lexeme ends. -/
  line : Nat
  deriving DecidableEq, Repr

namespace Token

def Kind.name : Kind → String
  | .symbol s => s.name
  | .keyword k => k.name
  | .identifier => "IDENTIFIER"
  | .string _ => "STRING"
  | .number _ => "NUMBER"
  | .endOfInput => "EOF"

def endOfInput (line : Nat) : Token := ⟨.endOfInput, "", line⟩

def isEnd (t : Token) : Bool :=
  match t.kind with
  | .endOfInput => true
  | _ => false

/-- The value that a token carries. -/
inductive Literal where
  | number (value : Float)
  | string (content : String)
  | bool (value : Bool)
  deriving DecidableEq, Repr

def literal? (t : Token) : Option Literal :=
  match t.kind with
  | .number x => some (.number x)
  | .string s => some (.string s)
  | .keyword .true => some (.bool true)
  | .keyword .false => some (.bool false)
  | _ => none

end Token

end Scriptlet
