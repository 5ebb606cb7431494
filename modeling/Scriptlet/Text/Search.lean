/-!
# Parts of texts

Searching and cutting character lists.
-/
namespace Scriptlet.Text

/-- `needle` occurs in the text. -/
def occurs (needle : List Char) : List Char → Bool
  | [] => needle.isEmpty
  | c :: cs => needle.isPrefixOf (c :: cs) || occurs needle cs

/-- Cuts at every occurrence of a separator, taken from the left without overlap. `skip` characters of an
occurrence are still to be passed, `part` holds the current part in reverse. -/
def cutAt (separator : List Char) (skip : Nat) (part : List Char) : List Char → List (List Char)
  | [] => [part.reverse]
  | c :: cs =>
    match skip with
    | k + 1 => cutAt separator k part cs
    | 0 =>
      if separator.isPrefixOf (c :: cs) then
        part.reverse :: cutAt separator (separator.length - 1) [] cs
      else cutAt separator 0 (c :: part) cs

/-- The parts between separators. The empty separator stands between all characters and at both ends. -/
def split (separator text : List Char) : List (List Char) :=
  if separator.isEmpty then [] :: (text.map fun c => [c]) ++ [[]]
  else cutAt separator 0 [] text

/-- Drops one carriage return at the end. -/
def withoutReturn [BEq α] (carriageReturn : α) (line : List α) : List α :=
  if line.getLast? == some carriageReturn then line.dropLast else line

/-- Lines of a text, `line` holding the current one in reverse. A line ends at a newline, which may follow
a carriage return; the last line needs no newline and keeps its carriage return. -/
def linesFrom [BEq α] (newline carriageReturn : α) (line : List α) : List α → List (List α)
  | [] => if line.isEmpty then [] else [line.reverse]
  | c :: cs =>
    if c == newline then
      withoutReturn carriageReturn line.reverse :: linesFrom newline carriageReturn [] cs
    else linesFrom newline carriageReturn (c :: line) cs

def lines (text : String) : List String :=
  (linesFrom '\n' '\r' [] text.toList).map String.ofList

/-- Lines of a byte string, by the bytes of newline and carriage return. -/
def byteLines (bytes : ByteArray) : List ByteArray :=
  (linesFrom 10 13 [] bytes.toList).map fun line => ⟨line.toArray⟩

end Scriptlet.Text
