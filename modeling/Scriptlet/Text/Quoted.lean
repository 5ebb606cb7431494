import Scriptlet.Text.Hidden

/-!
# Quoted text

Text between double quotes, with escapes for what would end or break it.
-/
namespace Scriptlet.Text

def quote : String := "\""

/-- Lower-case hexadecimal digits of a number. -/
def hexDigits (n : Nat) : List Char := Nat.toDigits 16 n

/-- Hexadecimal digits, filled up with zeros to four. -/
def hexFour (n : Nat) : List Char :=
  let digits := hexDigits n
  List.replicate (4 - digits.length) '0' ++ digits

/-- A character inside a quoted string of a structured listing. -/
def escapeListed (c : Char) : List Char :=
  match c with
  | '"' => ['\\', '"']
  | '\\' => ['\\', '\\']
  | '\n' => ['\\', 'n']
  | '\r' => ['\\', 'r']
  | '\t' => ['\\', 't']
  | '\x08' => ['\\', 'b']
  | '\x0c' => ['\\', 'f']
  | c => if c.toNat < 0x20 then ['\\', 'u'] ++ hexFour c.toNat else [c]

def quotedListed (s : String) : String :=
  quote ++ String.ofList (s.toList.flatMap escapeListed) ++ quote

/-- A character inside a quoted path. -/
def escapePath (c : Char) : List Char :=
  match c with
  | '"' => ['\\', '"']
  | '\\' => ['\\', '\\']
  | '\n' => ['\\', 'n']
  | '\r' => ['\\', 'r']
  | '\t' => ['\\', 't']
  | '\x00' => ['\\', '0']
  | c => if isHidden c then ['\\', 'u', '\x7b'] ++ hexDigits c.toNat ++ ['\x7d'] else [c]

def quotedPath (path : String) : String :=
  quote ++ String.ofList (path.toList.flatMap escapePath) ++ quote

end Scriptlet.Text
