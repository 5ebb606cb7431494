import Scriptlet.Number.Binary

/-!
# Fewest digits that read back

A decimal reads back as a double when it lies between the midpoints to the neighbouring doubles. Of the
decimals with the fewest digits that do, the nearest is taken. All comparisons are exact: for a grid of
decimals `c * 10 ^ place` both sides are scaled to natural numbers.
-/
namespace Scriptlet.Number

/-- The decimal `digits * 10 ^ place`. -/
structure Decimal where
  digits : Nat
  place : Int
  deriving DecidableEq, Repr

/-- Which of two equally near decimals is taken. -/
inductive Tie where
  | upward
  | toEven
  deriving DecidableEq, Repr

/-- The reals that round to one double, in quarters of its last place. -/
structure Rounding where
  low : Nat
  middle : Nat
  high : Nat
  /-- The end points belong to the interval. -/
  closed : Bool
  exponent : Int
  deriving Repr

/-- Below a power of two the doubles lie twice as close, so the lower midpoint is nearer there. -/
def Binary.rounding (b : Binary) : Rounding :=
  let m := b.significand
  let nearerBelow := m == twoTo fractionBits && b.exponent > leastExponent
  { low := if nearerBelow then 4 * m - 1 else 4 * m - 2
    middle := 4 * m
    high := 4 * m + 2
    closed := m % 2 == 0
    exponent := b.exponent - 2 }

/-- Bounds of the interval are multiplied by `factor`, a decimal `c * 10 ^ place` becomes `c * unit`. -/
structure Scale where
  factor : Nat
  unit : Nat

/-- Brings `r` and the grid of decimals at `place` to natural numbers. -/
def Rounding.scale (r : Rounding) (place : Int) : Scale :=
  let two := twoTo r.exponent.natAbs
  let ten := tenTo place.natAbs
  { factor := (if r.exponent < 0 then 1 else two) * (if place < 0 then ten else 1)
    unit := (if r.exponent < 0 then two else 1) * (if place < 0 then 1 else ten) }

/-- The decimal at `place` that reads back and is nearest, if there is one: only the two neighbours of the
exact value can be it. -/
def Rounding.onGrid? (r : Rounding) (tie : Tie) (place : Int) : Option Nat :=
  let ⟨factor, unit⟩ := r.scale place
  let exact := r.middle * factor
  let below := exact / unit
  let above := below + 1
  let inside (c : Nat) : Bool :=
    if r.closed then r.low * factor ≤ c * unit && c * unit ≤ r.high * factor
    else r.low * factor < c * unit && c * unit < r.high * factor
  let downward := exact - below * unit
  let upward := above * unit - exact
  match inside below, inside above with
  | false, false => none
  | true, false => some below
  | false, true => some above
  | true, true =>
    if downward < upward then some below
    else if upward < downward then some above
    else match tie with
      | .upward => some above
      | .toEven => some (if below % 2 == 0 then below else above)

/-- Drops trailing zeros, at most `n` of them. -/
def Decimal.trim : Nat → Decimal → Decimal
  | 0, d => d
  | n + 1, d =>
    if d.digits != 0 && d.digits % 10 == 0 then Decimal.trim n ⟨d.digits / 10, d.place + 1⟩ else d

/-- Tries the grids from `place` downward, each ten times finer than the one before. -/
def Rounding.search (r : Rounding) (tie : Tie) : Nat → Int → Decimal
  | 0, place => ⟨r.middle, place⟩
  | n + 1, place =>
    match r.onGrid? tie place with
    | some c => (Decimal.mk c place).trim 20
    | none => r.search tie n (place - 1)

/-- The exponent of the leading decimal digit of `significand * 2 ^ exponent`, for a positive significand. -/
def Binary.leadingPlace (b : Binary) : Int :=
  let estimate := Int.fdiv ((b.significand.log2 + b.exponent) * 30103) 100000
  -- compares the number with `10 ^ place`
  let reaches (place : Int) : Bool :=
    let left := b.significand * (if b.exponent < 0 then 1 else twoTo b.exponent.natAbs) *
      (if place < 0 then tenTo place.natAbs else 1)
    let right := (if b.exponent < 0 then twoTo b.exponent.natAbs else 1) *
      (if place < 0 then 1 else tenTo place.natAbs)
    right ≤ left
  if !reaches estimate then estimate - 1
  else if reaches (estimate + 1) then estimate + 1
  else estimate

/-- Seventeen digits are always enough to read back. -/
def digitLimit : Nat := 17

/-- The shortest decimal that reads back as the magnitude of `b`. -/
def Binary.shortest (tie : Tie) (b : Binary) : Decimal :=
  if b.significand == 0 then ⟨0, 0⟩
  else b.rounding.search tie (digitLimit + 1) b.leadingPlace

end Scriptlet.Number
