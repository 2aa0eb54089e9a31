import GraphQuery.Json.Basic
import GraphQuery.Json.Fault

/-!
# Numbers in JSON text

`Numeral.read` splits a number into its digits; `Numeral.value?` gives the number they stand for. A
numeral without point and exponent that fits 64 bits is an integer. Any other is a double, found
without exact rounding: as many leading digits as fit 64 bits form a significand, which is converted
and then multiplied or divided once by a power of ten.
-/

namespace GraphQuery

/-- The digits of a number in text. -/
structure Numeral where
  negative : Bool
  whole : List Nat
  fraction : Option (List Nat)
  /-- The sign (negative or not) and the digits behind `e`. -/
  exponent : Option (Bool × List Nat)
  deriving DecidableEq, Repr

namespace Numeral

/-- A decimal digit's value. -/
def digitValue (c : Char) : Nat := c.toNat - '0'.toNat

/-- The digits at the head of a text, and what follows them. -/
def spanDigits (cs : List Char) : List Nat × List Char :=
  ((cs.takeWhile Char.isDigit).map digitValue, cs.dropWhile Char.isDigit)

/-- Where a digit is due: the fault of its absence. -/
def missingDigit (cs : List Char) : Fault :=
  if cs.isEmpty then .endInWord else .invalidNumber

/-- The digits before the point; a leading zero stands alone. -/
def readWhole (cs : List Char) : Except Fault (List Nat × List Char) :=
  match cs with
  | '0' :: rest => if (rest.head?.map Char.isDigit).getD false then .error .invalidNumber
      else .ok ([0], rest)
  | _ => match spanDigits cs with
    | ([], rest) => .error (missingDigit rest)
    | found => .ok found

/-- The digits behind a point, if there is one. -/
def readFraction (cs : List Char) : Except Fault (Option (List Nat) × List Char) :=
  match cs with
  | '.' :: rest => match spanDigits rest with
    | ([], rest) => .error (missingDigit rest)
    | (ds, rest) => .ok (some ds, rest)
  | _ => .ok (none, cs)

/-- The sign of an exponent. -/
def readSign (cs : List Char) : Bool × List Char :=
  match cs with
  | '+' :: rest => (false, rest)
  | '-' :: rest => (true, rest)
  | _ => (false, cs)

/-- The exponent, if there is one. -/
def readExponent (cs : List Char) : Except Fault (Option (Bool × List Nat) × List Char) :=
  match cs with
  | c :: rest =>
    if c = 'e' ∨ c = 'E' then
      let (negative, rest) := readSign rest
      match spanDigits rest with
      | ([], rest) => .error (missingDigit rest)
      | (ds, rest) => .ok (some (negative, ds), rest)
    else .ok (none, cs)
  | [] => .ok (none, cs)

/-- A number at the head of a text, which starts with a digit or a minus. -/
def read (cs : List Char) : Except Fault (Numeral × List Char) := do
  let (negative, cs) := match cs with
    | '-' :: rest => (true, rest)
    | _ => (false, cs)
  let (whole, cs) ← readWhole cs
  let (fraction, cs) ← readFraction cs
  let (exponent, cs) ← readExponent cs
  return (⟨negative, whole, fraction, exponent⟩, cs)

/-- The natural number that digits spell. -/
def ofDigits (ds : List Nat) : Nat := ds.foldl (fun n d => 10 * n + d) 0

/-- Append digits to a significand while it fits 64 bits; the second part counts the digits left. -/
def absorb (significand : Nat) : List Nat → Nat × Nat
  | [] => (significand, 0)
  | d :: rest =>
    if significand * 10 + d < Nat.pow 2 64 then absorb (significand * 10 + d) rest
    else (significand, rest.length + 1)

/-- The double nearest to a power of ten. -/
def powerOfTen (e : Nat) : Double := (Double.nearest false (Nat.pow 10 e) 1).getD (.zero false)

/-- Divide by `10 ^ 308` until the exponent is within the table of powers or nothing is left. -/
def scaleDown : Nat → Double → Nat → Double
  | 0, x, _ => .zero x.negative
  | fuel + 1, x, e =>
    if e ≤ 308 then (x.div? (powerOfTen e)).getD x
    else if x.isZero then x
    else scaleDown fuel ((x.div? (powerOfTen 308)).getD x) (e - 308)

/-- `significand · 10 ^ exponent`, rounded once for the significand and once for each power. A
64-bit significand is gone after three divisions by `10 ^ 308`. -/
def scale? (significand : Nat) (exponent : Int) : Option Double := do
  let x ← Double.nearest false significand 1
  if exponent < 0 then return scaleDown 4 x exponent.natAbs
  else if exponent ≤ 308 then x.mul? (powerOfTen exponent.toNat)
  else if x.isZero then return x
  else none

/-- The double with its sign set. -/
def signed (negative : Bool) (x : Double) : Double := { x with negative := negative }

/-- The number a numeral stands for; none when it is out of range. -/
def value? (n : Numeral) : Option Number :=
  let (significand, left) := absorb 0 n.whole
  if n.fraction = none ∧ n.exponent = none ∧ left = 0 ∧
      (if n.negative then 0 < significand ∧ significand ≤ Nat.pow 2 63 else True) then
    some (.int (if n.negative then -(significand : Int) else significand))
  else
    let fraction := n.fraction.getD []
    let (significand, unread) := absorb significand fraction
    let base : Int := (left : Int) - ((fraction.length - unread : Nat) : Int)
    let (negative, shift) := n.exponent.getD (false, [])
    let shift := ofDigits shift
    if Nat.pow 2 31 ≤ shift then
      if significand ≠ 0 ∧ !negative then none
      else some (.float (.zero n.negative))
    else
      (scale? significand (if negative then base - shift else base + shift)).map
        fun x => .float (signed n.negative x)

end Numeral

end GraphQuery
