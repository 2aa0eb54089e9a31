import GraphQuery.Decimal.Double

/-!
# Shortest decimals

`Decimal.shortest` gives the fewest decimal digits that read back as a given double: among the
decimals that round to it, those with the least number of digits, and of these the nearest. All
comparisons are exact, in natural numbers.
-/

namespace GraphQuery

/-- `digits · 10 ^ exponent`. -/
structure Decimal where
  digits : Nat
  exponent : Int
  deriving DecidableEq, Repr

namespace Decimal

/-- The number of decimal digits of a natural number; zero has one. -/
def digitCount (n : Nat) : Nat := (Nat.toDigits 10 n).length

/-- The decimal exponent of the leading digit of `num / den`, both positive. -/
def leadingExponent (num den : Nat) : Int :=
  if den ≤ num then (digitCount (num / den) : Int) - 1
  else -(digitCount ((den + num - 1) / num - 1) : Int)

/-- The reals that round to a positive double, and the double itself, all in units of
`unitNum / unitDen`. -/
structure Interval where
  low : Nat
  value : Nat
  high : Nat
  closed : Bool
  unitNum : Nat
  unitDen : Nat

/-- The gap below a power of two is half of the gap above it; the ends belong to the interval when
the significand is even. -/
def interval (x : Double) : Interval :=
  let q := x.exponent - 2
  let below := if x.significand = Nat.pow 2 52 ∧ x.exponent ≠ -1074 then 1 else 2
  { low := 4 * x.significand - below
    value := 4 * x.significand
    high := 4 * x.significand + 2
    closed := x.significand % 2 == 0
    unitNum := Nat.pow 2 q.toNat
    unitDen := Nat.pow 2 (-q).toNat }

/-- The point `d · 10 ^ k` lies in the interval. -/
def Interval.holds (i : Interval) (d : Nat) (k : Int) : Bool :=
  let unit := i.unitNum * Nat.pow 10 (-k).toNat
  let point := d * Nat.pow 10 k.toNat * i.unitDen
  if i.closed then decide (i.low * unit ≤ point) && decide (point ≤ i.high * unit)
  else decide (i.low * unit < point) && decide (point < i.high * unit)

/-- The best point of the grid `10 ^ k` inside the interval: one of the two neighbours of the value,
a tie going to the even one. -/
def onGrid? (i : Interval) (k : Int) : Option Nat :=
  let unit := i.unitNum * Nat.pow 10 (-k).toNat
  let grid := Nat.pow 10 k.toNat * i.unitDen
  let below := i.value * unit / grid
  let rest := i.value * unit % grid
  let lower := i.holds below k
  let upper := i.holds (below + 1) k
  if lower && upper then
    if 2 * rest < grid then some below
    else if 2 * rest > grid then some (below + 1)
    else some (below + below % 2)
  else if lower then some below
  else if upper then some (below + 1)
  else none

/-- The first of the grids with `count`, `count + 1`, … digits that has a point in the interval. -/
def firstGrid (i : Interval) (leading : Int) : Nat → Nat → Decimal
  | 0, count => ⟨i.value * i.unitNum / i.unitDen, leading - count⟩
  | fuel + 1, count =>
    let k := leading - count + 1
    match onGrid? i k with
    | some d => ⟨d, k⟩
    | none => firstGrid i leading fuel (count + 1)

/-- Drop trailing zeros, which say nothing about the value. -/
def trim : Nat → Decimal → Decimal
  | 0, d => d
  | fuel + 1, d => if d.digits % 10 = 0 then trim fuel ⟨d.digits / 10, d.exponent + 1⟩ else d

/-- The shortest decimal that reads back as the magnitude of `x`. Seventeen digits always do. -/
def shortest (x : Double) : Decimal :=
  if x.isZero then ⟨0, 0⟩
  else trim 17 (firstGrid (interval x) (leadingExponent x.numerator x.denominator) 17 1)

end Decimal

end GraphQuery
