import Scriptlet.Number.Binary
import Scriptlet.Token.Basic

/-!
# From text to tokens

The text is first cut into pieces: blanks, comments, tokens, stray characters. A piece takes the longest
lexeme at its place, pieces follow each other without gaps, and nothing is skipped. Tokens and errors are
then read off the pieces, with lines counted by the newlines passed so far.

A block comment may still be open at the end of the text. Whether it is carries over to the next text.
-/
namespace Scriptlet

inductive LexicalError where
  | unexpected (char : Char)
  | unterminatedString
  deriving DecidableEq, Repr

def LexicalError.message : LexicalError → String
  | .unexpected c => s!"Unexpected character: {c}"
  | .unterminatedString => "Unterminated string."

namespace Piece

inductive Kind where
  | blank
  | comment
  /-- A block comment without its end. -/
  | openComment
  | token (kind : Token.Kind)
  | stray (char : Char)
  /-- A string without its closing quote. -/
  | openString (content : String)
  deriving DecidableEq, Repr

end Piece

/-- A part of the text with what it stands for. -/
structure Piece where
  kind : Piece.Kind
  text : List Char
  deriving DecidableEq, Repr

namespace Piece

def isDigit (c : Char) : Bool := '0' ≤ c && c ≤ '9'

def isNameStart (c : Char) : Bool := ('a' ≤ c && c ≤ 'z') || ('A' ≤ c && c ≤ 'Z') || c == '_'

def isNamePart (c : Char) : Bool := isNameStart c || isDigit c

/-- Number of characters up to and including the first `*/`. -/
def closeLength? : List Char → Option Nat
  | '*' :: '/' :: _ => some 2
  | _ :: cs => (closeLength? cs).map (· + 1)
  | [] => none

/-- A kind together with the number of characters that follow the first one. -/
structure Extent where
  kind : Kind
  more : Nat

/-- The inside of a block comment. -/
def commentExtent (opening : Nat) (cs : List Char) : Extent :=
  match closeLength? cs with
  | some n => ⟨.comment, opening + n⟩
  | none => ⟨.openComment, opening + cs.length⟩

def stringExtent (cs : List Char) : Extent :=
  let content := cs.takeWhile (· != '"')
  if content.length < cs.length then
    ⟨.token (.string (String.ofList content)), content.length + 1⟩
  else
    ⟨.openString (String.ofList content), content.length⟩

/-- Digits, then a point and more digits if a digit follows the point. -/
def numberExtent (first : Char) (cs : List Char) : Extent :=
  let whole := cs.takeWhile isDigit
  match cs.dropWhile isDigit with
  | '.' :: after =>
    let fraction := after.takeWhile isDigit
    if fraction.isEmpty then
      ⟨.token (.number (Number.ofDecimal (first :: whole) [])), whole.length⟩
    else
      ⟨.token (.number (Number.ofDecimal (first :: whole) fraction)), whole.length + 1 + fraction.length⟩
  | _ => ⟨.token (.number (Number.ofDecimal (first :: whole) [])), whole.length⟩

def wordExtent (first : Char) (cs : List Char) : Extent :=
  let more := cs.takeWhile isNamePart
  match Keyword.ofText? (String.ofList (first :: more)) with
  | some k => ⟨.token (.keyword k), more.length⟩
  | none => ⟨.token .identifier, more.length⟩

/-- A symbol that is longer when `second` follows. -/
def pairExtent (alone paired : Symbol) (second : Char) : List Char → Extent
  | c :: _ => if c == second then ⟨.token (.symbol paired), 1⟩ else ⟨.token (.symbol alone), 0⟩
  | [] => ⟨.token (.symbol alone), 0⟩

/-- The piece that starts with `first`, by the characters after it. -/
def extent (first : Char) (cs : List Char) : Extent :=
  match first with
  | '(' => ⟨.token (.symbol .leftParen), 0⟩
  | ')' => ⟨.token (.symbol .rightParen), 0⟩
  | '{' => ⟨.token (.symbol .leftBrace), 0⟩
  | '}' => ⟨.token (.symbol .rightBrace), 0⟩
  | '[' => ⟨.token (.symbol .leftBracket), 0⟩
  | ']' => ⟨.token (.symbol .rightBracket), 0⟩
  | ',' => ⟨.token (.symbol .comma), 0⟩
  | '.' => ⟨.token (.symbol .dot), 0⟩
  | '-' => ⟨.token (.symbol .minus), 0⟩
  | '+' => ⟨.token (.symbol .plus), 0⟩
  | ';' => ⟨.token (.symbol .semicolon), 0⟩
  | ':' => ⟨.token (.symbol .colon), 0⟩
  | '%' => ⟨.token (.symbol .modulo), 0⟩
  | '^' => ⟨.token (.symbol .exponent), 0⟩
  | '*' => ⟨.token (.symbol .star), 0⟩
  | '!' => pairExtent .bang .bangEqual '=' cs
  | '=' => pairExtent .equal .equalEqual '=' cs
  | '<' =>
    match cs with
    | '<' :: _ => ⟨.token (.symbol .shiftLeft), 1⟩
    | _ => pairExtent .less .lessEqual '=' cs
  | '>' =>
    match cs with
    | '>' :: _ => ⟨.token (.symbol .shiftRight), 1⟩
    | _ => pairExtent .greater .greaterEqual '=' cs
  | ' ' | '\r' | '\t' | '\n' => ⟨.blank, 0⟩
  | '/' =>
    match cs with
    | '/' :: after => ⟨.comment, 1 + (after.takeWhile (· != '\n')).length⟩
    | '*' :: after => commentExtent 1 after
    | _ => ⟨.token (.symbol .slash), 0⟩
  | '"' => stringExtent cs
  | c =>
    if isDigit c then numberExtent c cs
    else if isNameStart c then wordExtent c cs
    else ⟨.stray c, 0⟩

/-- Cuts a text outside comments into its pieces. -/
def cutPlain : List Char → List Piece
  | [] => []
  | c :: cs =>
    let e := extent c cs
    ⟨e.kind, c :: cs.take e.more⟩ :: cutPlain (cs.drop e.more)
termination_by cs => cs.length
decreasing_by
  simp only [List.length_drop, List.length_cons]
  omega

/-- Cuts a text into its pieces; `inComment` says that it starts inside a block comment. -/
def cut (inComment : Bool) (cs : List Char) : List Piece :=
  if inComment && !cs.isEmpty then
    let e := commentExtent 0 cs
    ⟨e.kind, cs.take e.more⟩ :: cutPlain (cs.drop e.more)
  else cutPlain cs

def newlines (cs : List Char) : Nat := cs.count '\n'

end Piece

namespace Token

/-- What scanning yields, in the order of the text. -/
inductive Item where
  | token (token : Token)
  | error (line : Nat) (error : LexicalError)
  deriving DecidableEq, Repr

/-- The items of one piece whose last line is `line`. -/
def Item.ofPiece (line : Nat) (p : Piece) : List Item :=
  match p.kind with
  | .blank | .comment | .openComment => []
  | .token kind => [.token ⟨kind, String.ofList p.text, line⟩]
  | .stray c => [.error line (.unexpected c)]
  | .openString content =>
    [.error line .unterminatedString, .token ⟨.string content, String.ofList p.text, line⟩]

/-- The items of consecutive pieces, ended by the end of the input. -/
def Item.ofPieces (line : Nat) : List Piece → List Item
  | [] => [.token (Token.endOfInput line)]
  | p :: ps =>
    let line := line + Piece.newlines p.text
    Item.ofPiece line p ++ Item.ofPieces line ps

end Token

/-- The outcome of scanning one text. -/
structure Scan where
  items : List Token.Item
  /-- A block comment is still open at the end. -/
  inComment : Bool
  deriving DecidableEq, Repr

namespace Scan

/-- Whether a text cut into `pieces` ends inside a block comment. -/
def endsInComment (inComment : Bool) (pieces : List Piece) : Bool :=
  match pieces.getLast? with
  | none => inComment
  | some p => p.kind == .openComment

/-- Scans a text; `inComment` says that it starts inside a block comment. -/
def ofText (inComment : Bool) (text : String) : Scan :=
  let pieces := Piece.cut inComment text.toList
  ⟨Token.Item.ofPieces 0 pieces, endsInComment inComment pieces⟩

def tokens (s : Scan) : List Token :=
  s.items.filterMap fun
    | .token t => some t
    | .error .. => none

/-- The lexical errors with their lines. -/
def errors (s : Scan) : List (Nat × LexicalError) :=
  s.items.filterMap fun
    | .token _ => none
    | .error line e => some (line, e)

def hadError (s : Scan) : Bool := !s.errors.isEmpty

end Scan

end Scriptlet
