import Scriptlet.Number.Shortest

/-!
# Number texts

One writer places the digits of a decimal; records say where the written forms of numbers differ.
-/
namespace Scriptlet.Number

/-- How the digits of a number are laid out. -/
structure Layout where
  /-- Leading digits at these places are written without an exponent. -/
  positional : Int → Bool
  /-- A whole number ends in `.0`. -/
  pointZero : Bool
  /-- Zero keeps its sign. -/
  signedZero : Bool
  tie : Tie
  nan : String
  infinity : String

def zeros (n : Nat) : String := String.ofList (List.replicate n '0')

/-- Digits with the point at its place and no exponent. -/
def Decimal.positional (pointZero : Bool) (d : Decimal) : String :=
  let digits := toString d.digits
  if d.place ≥ 0 then
    digits ++ (if d.digits == 0 then "" else zeros d.place.natAbs) ++ (if pointZero then ".0" else "")
  else
    let after := d.place.natAbs
    if digits.length ≤ after then
      "0." ++ zeros (after - digits.length) ++ digits
    else
      let chars := digits.toList
      let before := chars.length - after
      String.ofList (chars.take before) ++ "." ++ String.ofList (chars.drop before)

/-- One digit before the point, then the exponent with its sign. -/
def Decimal.scientific (d : Decimal) : String :=
  match (toString d.digits).toList with
  | [] => ""
  | first :: others =>
    let exponent := d.place + others.length
    let mantissa :=
      if others.isEmpty then first.toString else first.toString ++ "." ++ String.ofList others
    let sign := if exponent < 0 then "-" else "+"
    mantissa ++ "e" ++ sign ++ toString exponent.natAbs

def Layout.write (layout : Layout) (x : Float) : String :=
  match decode x with
  | .nan => layout.nan
  | .infinite negative => (if negative then "-" else "") ++ layout.infinity
  | .finite b =>
    let d := b.shortest layout.tie
    let signed := b.negative && (layout.signedZero || b.significand != 0)
    let leading := d.place + ((toString d.digits).length - 1 : Nat)
    (if signed then "-" else "") ++
      (if layout.positional leading then d.positional layout.pointZero else d.scientific)

/-- Numbers as programs print them: all digits in place, no trailing point, no negative zero. -/
def printed : Layout where
  positional _ := true
  pointZero := false
  signedZero := false
  tie := .upward
  nan := "NaN"
  infinity := "Infinity"

/-- Literals too large or too fine for the short token form. -/
def plain : Layout where
  positional _ := true
  pointZero := false
  signedZero := true
  tie := .upward
  nan := "NaN"
  infinity := "inf"

/-- Numbers of the structured token listing: an exponent from `10 ^ 16` upward and below `10 ^ -5`. -/
def listed : Layout where
  positional place := -5 ≤ place && place < 16
  pointZero := true
  signedZero := true
  tie := .toEven
  nan := "null"
  infinity := "null"

/-- The text of a number in the language. -/
def text (x : Float) : String := printed.write x

/-- Whole numbers below this bound have a short form. -/
def shortBound : Nat := tenTo 15

/-- The text of a number literal in a token listing: `3.0`, `3.25`. -/
def literalText (x : Float) : String :=
  match decode x with
  | .finite b =>
    if b.isWhole && b.whole < shortBound then toString b.truncate ++ ".0" else plain.write x
  | _ => plain.write x

/-- The text of a number literal in a printed tree. Whole numbers show every digit of their exact value. -/
def treeText (x : Float) : String :=
  match decode x with
  | .finite b =>
    if b.isWhole then (if b.negative then "-" else "") ++ toString b.whole ++ ".0" else plain.write x
  | _ => plain.write x

/-- The text of a number in the structured token listing. -/
def listedText (x : Float) : String :=
  match decode x with
  | .finite _ => listed.write x
  | _ => listed.nan

end Scriptlet.Number
