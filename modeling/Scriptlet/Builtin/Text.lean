import Scriptlet.Builtin.Argument
import Scriptlet.Text.Blank
import Scriptlet.Text.Case
import Scriptlet.Text.Search

/-!
# String methods

Positions and lengths count characters.
-/
namespace Scriptlet.Builtin

/-- The property of a string. -/
def stringProperty (text : String) (name : Name) : Eval Value := do
  match StringMethod.all.find? (·.name == name.text) with
  | some m => freshNative (.string m text)
  | none => Eval.fail name.line (.undefinedMember .string name.text)

def charText (c : Char) : Value := .string (String.singleton c)

/-- The one character of a padding argument. -/
def paddingChar (line : Nat) (fill : Value) : Eval Char := do
  match (← Eval.textOf fill).toList with
  | [c] => return c
  | _ => Eval.fail line .paddingNotCharacter

/-- Number of characters missing to a wanted length. -/
def missing (wanted : Int) (length : Nat) : Nat := (wanted - length).toNat

/-- Fills a text up to a length, in front or behind. -/
def pad (line : Nat) (text : String) (wanted : Int) (fill : Char) (atStart : Bool) : Eval Value := do
  let count := missing wanted text.length
  if count * fill.utf8Size + text.utf8ByteSize > storageLimit then Eval.fail line .paddingTooLarge
  let padding := String.ofList (List.replicate count fill)
  return .string (if atStart then padding ++ text else text ++ padding)

def substring (line : Nat) (text : String) (first last : Int) : Eval Value := do
  if first < 0 || last > text.length || first > last then
    Eval.fail line (.substringRange first last)
  return .string (String.ofList ((text.toList.drop first.toNat).take (last - first).toNat))

def repeatText (line : Nat) (text : String) (times : Int) : Eval Value := do
  if times < 0 then Eval.fail line .repeatCount
  if text.isEmpty then return .string ""
  if text.utf8ByteSize * times.toNat > storageLimit then Eval.fail line .repeatCount
  return .string (String.join (List.replicate times.toNat text))

def charAt (line : Nat) (text : String) (index : Int) : Eval Value :=
  match position? index text.length true with
  | none => Eval.fail line .positionOutOfRange
  | some i =>
    match text.toList[i]? with
    | some c => return charText c
    | none => return .null

def callString (line : Nat) (m : StringMethod) (text : String) (args : List Value) : Eval Value :=
  match m, args with
  | .length, [] => return .number (Number.ofInt text.length)
  | .isEmpty, [] => return .bool text.isEmpty
  | .isNotEmpty, [] => return .bool !text.isEmpty
  | .isBlank, [] => return .bool (Text.allBlank text)
  | .isNotBlank, [] => return .bool !(Text.allBlank text)
  | .lowercase, [] => return .string (Text.lowercase text)
  | .uppercase, [] => return .string (Text.uppercase text)
  | .trim, [] => return .string (Text.trim text)
  | .trimStart, [] => return .string (Text.trimStart text)
  | .trimEnd, [] => return .string (Text.trimEnd text)
  | .chars, [] => Eval.newCollection .array (text.toList.map charText).toArray
  | .split, [separator] => do
    let separator ← Eval.textOf separator
    let parts := Text.split separator.toList text.toList
    Eval.newCollection .array (parts.map fun p => .string (String.ofList p)).toArray
  | .startsWith, [other] => do return .bool ((← Eval.textOf other).toList.isPrefixOf text.toList)
  | .endsWith, [other] => do return .bool ((← Eval.textOf other).toList.isSuffixOf text.toList)
  | .contains, [other] => do return .bool (Text.occurs (← Eval.textOf other).toList text.toList)
  | .substring, [first, last] => do
    let first ← integer line .substringStart first
    let last ← integer line .substringEnd last
    substring line text first last
  | .repeated, [times] => do repeatText line text (← integer line .repeatCount times)
  | .padStart, [wanted, fill] => do
    let wanted ← integer line .paddingLength wanted
    pad line text wanted (← paddingChar line fill) true
  | .padEnd, [wanted, fill] => do
    let wanted ← integer line .paddingLength wanted
    pad line text wanted (← paddingChar line fill) false
  | .charAt, [index] => do charAt line text (← integer line .position index)
  | m, args => countFault line (.string m text) args

end Scriptlet.Builtin
