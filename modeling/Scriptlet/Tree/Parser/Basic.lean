import Scriptlet.Location
import Scriptlet.Tree.Basic
import Scriptlet.Tree.SyntaxError

/-!
# Parsers

A parser reads tokens with one token of lookahead. It fails with one located error, and some problems are
reported without failing.

Every recursive call of a parser is made after a token was read, so the number of unread tokens bounds the
depth, and every turn of a loop reads a token, so it bounds the turns as well. Both bounds are passed as
counters.
-/
namespace Scriptlet

namespace Parser

structure State where
  /-- The unread tokens, the end of the input last. -/
  rest : List Token
  /-- Number of unread tokens. -/
  unread : Nat
  unread_eq : unread = rest.length
  /-- Problems reported so far. -/
  problems : List (Located SyntaxError)
  /-- The next unused node identity. -/
  nextId : NodeId

namespace State

def ofTokens (tokens : List Token) (nextId : NodeId) : State := ⟨tokens, tokens.length, rfl, [], nextId⟩

/-- Drops the next token. -/
def skip (s : State) : State :=
  { s with rest := s.rest.tail, unread := s.unread - 1, unread_eq := by simp [s.unread_eq] }

end State

end Parser

/-- A parser fails with one located error; what it read and reported stays. -/
abbrev Parser := EStateM (Located SyntaxError) Parser.State

namespace Parser

/-! ## Reading tokens -/

/-- The next token; past the end of the list it is the end of the input. -/
def peek : Parser Token := do return (← get).rest.headD (Token.endOfInput 0)

def atEnd : Parser Bool := do return (← peek).isEnd

def remaining : Parser Nat := do return (← get).unread

/-- Reads a token; the end of the input stays. -/
def advance : Parser Token := do
  let t ← peek
  if !t.isEnd then modify State.skip
  return t

def check (kind : Token.Kind) : Parser Bool := do
  let t ← peek
  return !t.isEnd && t.kind == kind

/-- Reads a token of the given kind if it is next. -/
def accept (kind : Token.Kind) : Parser Bool := do
  if ← check kind then
    let _ ← advance
    return true
  return false

def report (problem : Located SyntaxError) : Parser Unit :=
  modify fun s => { s with problems := s.problems ++ [problem] }

def failHere (what : Expected) : Parser α := do
  throw (Located.atToken (← peek) (.expected what))

def expect (kind : Token.Kind) (what : Expected) : Parser Token := do
  if ← check kind then advance else failHere what

def symbol (s : Symbol) (what : Expected) : Parser Token := expect (.symbol s) what

def identifier (what : Expected) : Parser Name := do
  let t ← expect .identifier what
  return ⟨t.lexeme, t.line⟩

def freshId : Parser NodeId :=
  modifyGet fun s => (s.nextId, { s with nextId := s.nextId + 1 })

/-! ## Lists -/

/-- Items one after another until `stop`; items that failed to parse leave no entry. -/
def itemsUntil (stop : Parser Bool) (item : Parser (Option α)) : Nat → Parser (List α)
  | 0 => return []
  | n + 1 => do
    if ← stop then return []
    let first ← item
    let others ← itemsUntil stop item n
    return first.toList ++ others

/-- Items separated by commas, the first of which is number `count`. Each item past the limit is reported
and kept. -/
def commaSeparated (list : Listed) (item : Parser α) : Nat → (count : Nat) → Parser (List α)
  | 0, _ => return []
  | n + 1, count => do
    if count ≥ listLimit then report (Located.atToken (← peek) (.tooMany list))
    let first ← item
    if ← accept (.symbol .comma) then
      return first :: (← commaSeparated list item n (count + 1))
    return [first]

/-- A possibly empty list that ends before `closing`. -/
def listUntil (closing : Symbol) (list : Listed) (item : Parser α) : Parser (List α) := do
  if ← check (.symbol closing) then return []
  commaSeparated list item (← remaining) 0

end Parser

end Scriptlet
