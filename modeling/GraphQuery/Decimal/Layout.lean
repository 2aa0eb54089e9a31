import GraphQuery.Decimal.Shortest

/-!
# Writing a double

A `Decimal.Layout` holds the choices of one way to write a double: for which exponents the number is
written out in full. Outside that range it has one digit before the point and a signed exponent
behind `e`. A number written in full always has a digit behind the point.
-/

namespace GraphQuery.Decimal

/-- The exponents, those of the leading digit, for which a number is written out in full. -/
structure Layout where
  leastInFull : Int
  greatestInFull : Int
  deriving DecidableEq, Repr

/-- The exponent is written out in full. -/
def Layout.inFull (l : Layout) (leading : Int) : Bool :=
  decide (l.leastInFull ≤ leading) && decide (leading ≤ l.greatestInFull)

/-- The digits written out in full, the leading one at `10 ^ leading`. -/
def writeInFull (digits : List Char) (leading : Int) : List Char :=
  if leading < 0 then
    '0' :: '.' :: (List.replicate (leading.natAbs - 1) '0' ++ digits)
  else
    let whole := leading.toNat + 1
    if digits.length ≤ whole then
      digits ++ List.replicate (whole - digits.length) '0' ++ ['.', '0']
    else
      digits.take whole ++ '.' :: digits.drop whole

/-- One digit, the others behind a point, and the exponent with its sign. -/
def writeScientific (digits : List Char) (leading : Int) : List Char :=
  let mantissa := match digits with
    | [] => []
    | [d] => [d]
    | d :: rest => d :: '.' :: rest
  mantissa ++ 'e' :: (if leading < 0 then '-' else '+') :: Nat.toDigits 10 leading.natAbs

/-- The text of a double. -/
def Layout.write (l : Layout) (x : Double) : String :=
  let sign := if x.negative then ['-'] else []
  let d := shortest x
  let digits := Nat.toDigits 10 d.digits
  let leading := d.exponent + digits.length - 1
  String.ofList (sign ++
    if l.inFull leading then writeInFull digits leading else writeScientific digits leading)

end GraphQuery.Decimal
