/-!
# Doubles as exact binary fractions

A finite double is a signed significand times a power of two. The parts are read from its bits, so
every question below (is it whole, what is its integer part) is answered in exact arithmetic.
-/
namespace Scriptlet.Number

/-- The power `2 ^ n`. -/
def twoTo (n : Nat) : Nat := Nat.pow 2 n

/-- The power `10 ^ n`. -/
def tenTo (n : Nat) : Nat := Nat.pow 10 n

/-- The number `± significand * 2 ^ exponent`. -/
structure Binary where
  negative : Bool
  significand : Nat
  exponent : Int
  deriving DecidableEq, Repr

/-- What the bits of a double stand for. -/
inductive Decoded where
  | nan
  | infinite (negative : Bool)
  | finite (value : Binary)
  deriving DecidableEq, Repr

/-- Number of fraction bits of a double. -/
def fractionBits : Nat := 52

/-- Exponent of the last place of the smallest doubles. -/
def leastExponent : Int := -1074

def decode (x : Float) : Decoded :=
  let bits := x.toBits.toNat
  let negative := bits / twoTo 63 == 1
  let scale := bits / twoTo fractionBits % twoTo 11
  let fraction := bits % twoTo fractionBits
  if scale == twoTo 11 - 1 then
    if fraction == 0 then .infinite negative else .nan
  else if scale == 0 then
    .finite ⟨negative, fraction, leastExponent⟩
  else
    .finite ⟨negative, twoTo fractionBits + fraction, leastExponent + (scale - 1 : Nat)⟩

/-- The part of the magnitude before the binary point. -/
def Binary.whole (b : Binary) : Nat :=
  if b.exponent < 0 then b.significand / twoTo b.exponent.natAbs
  else b.significand * twoTo b.exponent.natAbs

/-- Nothing stands after the binary point. -/
def Binary.isWhole (b : Binary) : Bool :=
  b.exponent ≥ 0 || b.significand % twoTo b.exponent.natAbs == 0

/-- The integer part, taken toward zero. -/
def Binary.truncate (b : Binary) : Int :=
  if b.negative then -(b.whole : Int) else b.whole

/-- A finite double without a fractional part. -/
def isWhole (x : Float) : Bool :=
  match decode x with
  | .finite b => b.isWhole
  | _ => false

/-- The least integer of a signed 64-bit word, `-2 ^ 63`. -/
def wordMin : Int := -9223372036854775808

/-- The greatest integer of a signed 64-bit word, `2 ^ 63 - 1`. -/
def wordMax : Int := 9223372036854775807

/-- The nearest integer that a signed 64-bit word can hold. -/
def clampWord (n : Int) : Int := max wordMin (min wordMax n)

/-- The integer part as a signed word. It stops at the ends of the word, and a NaN counts as zero. -/
def toWord (x : Float) : Int :=
  match decode x with
  | .nan => 0
  | .infinite negative => if negative then wordMin else wordMax
  | .finite b => clampWord b.truncate

/-- The integer part as an unsigned word of the given width, stopping at both ends of the word. -/
def toUnsigned (width : Nat) (x : Float) : Nat :=
  match decode x with
  | .nan => 0
  | .infinite negative => if negative then 0 else twoTo width - 1
  | .finite b => if b.negative then 0 else min (twoTo width - 1) b.whole

/-- The integer in the range of a signed word that agrees with `n` modulo `2 ^ 64`. -/
def wrapWord (n : Int) : Int := Int.bmod n (twoTo 64)

/-- The double nearest to an integer. -/
def ofInt (n : Int) : Float := Float.ofInt n

/-- The value of a row of decimal digits. -/
def digitsValue (digits : List Char) : Nat :=
  digits.foldl (fun value c => 10 * value + (c.toNat - '0'.toNat)) 0

/-- The double nearest to `whole.fraction`; it is infinite when no finite double is near enough. -/
def ofDecimal (whole fraction : List Char) : Float :=
  Float.ofScientific (digitsValue (whole ++ fraction)) true fraction.length

end Scriptlet.Number
