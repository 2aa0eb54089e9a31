/-!
# Finite binary64 numbers

A `Double` is `± significand · 2 ^ exponent` in the canonical form of the binary64 format, so two
doubles are equal as structures exactly when their bit patterns are equal. `Double.nearest` is the
one rounding of the library: the double nearest to a fraction, a tie going to the even significand.
Products, quotients and conversions of integers are all read off from it.
-/

namespace GraphQuery

/-- The pairs `(m, q)` that binary64 keeps for `m · 2 ^ q`: subnormal at the least exponent, else a
significand of exactly 53 bits. -/
def Double.Canonical (significand : Nat) (exponent : Int) : Prop :=
  (significand < Nat.pow 2 52 ∧ exponent = -1074) ∨
    (Nat.pow 2 52 ≤ significand ∧ significand < Nat.pow 2 53 ∧ -1074 ≤ exponent ∧ exponent ≤ 971)

instance (significand : Nat) (exponent : Int) :
    Decidable (Double.Canonical significand exponent) := by
  unfold Double.Canonical
  infer_instance

/-- A finite binary64 number. -/
structure Double where
  negative : Bool
  significand : Nat
  exponent : Int
  canonical : Double.Canonical significand exponent
  deriving DecidableEq

namespace Double

/-- Zero of the given sign. -/
def zero (negative : Bool) : Double := ⟨negative, 0, -1074, by decide⟩

instance : Inhabited Double := ⟨zero false⟩

def isZero (x : Double) : Bool := x.significand == 0

/-- Numeric equality: the two zeros are one number. -/
def same (x y : Double) : Bool :=
  x.significand == y.significand && x.exponent == y.exponent &&
    (x.negative == y.negative || x.isZero)

/-- The magnitude is `numerator / denominator`. -/
def numerator (x : Double) : Nat := x.significand * Nat.pow 2 x.exponent.toNat

def denominator (x : Double) : Nat := Nat.pow 2 (-x.exponent).toNat

/-- The integer nearest to `num / den`, a tie going to the even one. -/
def roundHalfEven (num den : Nat) : Nat :=
  let whole := num / den
  let rest := num % den
  if 2 * rest < den then whole
  else if 2 * rest > den then whole + 1
  else whole + whole % 2

/-- `(num / den) / 2 ^ q` as a fraction of natural numbers. -/
def scaled (num den : Nat) (q : Int) : Nat × Nat :=
  (num * Nat.pow 2 (-q).toNat, den * Nat.pow 2 q.toNat)

/-- The exponent that leaves 53 bits before the binary point of `(num / den) / 2 ^ q`, but never
below the least exponent. -/
def rulingExponent (num den : Nat) : Int :=
  let guess : Int := (num.log2 : Int) - (den.log2 : Int) - 53
  let (n, d) := scaled num den guess
  max (-1074) (if n / d < Nat.pow 2 53 then guess else guess + 1)

/-- The double nearest to `± num / den`; a tie goes to the even significand. There is none when the
magnitude rounds beyond the largest double. -/
def nearest (negative : Bool) (num den : Nat) : Option Double :=
  if num = 0 then some (zero negative) else
  let q := rulingExponent num den
  let (n, d) := scaled num den q
  let m := roundHalfEven n d
  let (m, q) := if m = Nat.pow 2 53 then (Nat.pow 2 52, q + 1) else (m, q)
  if h : Canonical m q then some ⟨negative, m, q, h⟩ else none

/-- The double nearest to an integer. -/
def ofInt? (i : Int) : Option Double := nearest (decide (i < 0)) i.natAbs 1

/-- The double nearest to the product. -/
def mul? (x y : Double) : Option Double :=
  nearest (x.negative != y.negative) (x.numerator * y.numerator) (x.denominator * y.denominator)

/-- The double nearest to the quotient; the divisor must not be zero. -/
def div? (x y : Double) : Option Double :=
  nearest (x.negative != y.negative) (x.numerator * y.denominator) (x.denominator * y.numerator)

end Double

end GraphQuery
