import Scriptlet.Text.CaseData
import Scriptlet.Text.Ranges

/-!
# Upper and lower case

Full case mapping: a letter may become several, and a capital sigma at the end of a word becomes the final
form of the small letter.
-/
namespace Scriptlet.Text

def CaseRun.covers (r : CaseRun) (n : Nat) : Bool :=
  r.first ≤ n && n ≤ r.last && (n - r.first) % r.step == 0

/-- A character in one case, by its runs and its letters that become several. -/
def mapCase (runs : List CaseRun) (expansions : List (Nat × List Nat)) (c : Char) : List Char :=
  match expansions.lookup c.toNat with
  | some codes => codes.map Char.ofNat
  | none =>
    match runs.find? (·.covers c.toNat) with
    | some r => [Char.ofNat (c.toNat + r.shift).toNat]
    | none => [c]

/-- The first character that is not passed over has case. -/
def meetsLetter (cs : List Char) : Bool :=
  match cs.dropWhile (inRanges caseIgnorable) with
  | c :: _ => inRanges caseBearing c
  | [] => false

def capitalSigma : Char := 'Σ'

/-- Lower case of `cs`, where `before` holds the characters in front, nearest first. -/
def lowerAfter (before : List Char) : List Char → List Char
  | [] => []
  | c :: cs =>
    let mapped :=
      if c == capitalSigma then
        [if meetsLetter before && !meetsLetter cs then 'ς' else 'σ']
      else mapCase lowerRuns lowerExpansions c
    mapped ++ lowerAfter (c :: before) cs

def lowercase (s : String) : String := String.ofList (lowerAfter [] s.toList)

def uppercase (s : String) : String :=
  String.ofList (s.toList.flatMap (mapCase upperRuns upperExpansions))

end Scriptlet.Text
