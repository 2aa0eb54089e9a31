import Mathlib.Data.Nat.Digits.Defs

/-!
# Decimal digits

The number that digits spell is a sum over their places, so zeros in front do not count.
-/

namespace GraphQuery.Text

/-- The number that decimal digits spell. -/
def spelled (digits : List Char) : Nat :=
  Nat.ofDigits 10 (digits.map fun c => c.toNat - '0'.toNat).reverse

theorem spelled_cons (c : Char) (rest : List Char) :
    spelled (c :: rest) = 10 ^ rest.length * (c.toNat - '0'.toNat) + spelled rest := by
  rw [spelled, List.map_cons, Nat.ofDigits_reverse_cons, List.length_map, Nat.add_comm, spelled]

/-- Digits may be added up from left to right. -/
theorem ofDigitChars_eq_spelled (digits : List Char) : Nat.ofDigitChars 10 digits 0 = spelled digits := by
  induction digits with
  | nil => rfl
  | cons c rest ih =>
      rw [Nat.ofDigitChars_cons, Nat.ofDigitChars_eq_ofDigitChars_zero, ih, spelled_cons, Nat.mul_zero,
        Nat.zero_add]

/-- A number is spelled by its own digits. -/
theorem spelled_toDigits (n : Nat) : spelled (Nat.toDigits 10 n) = n := by
  rw [← ofDigitChars_eq_spelled, Nat.ofDigitChars_toDigits (by decide) (by decide)]

theorem toList_toString (n : Nat) : (toString n).toList = Nat.toDigits 10 n := Nat.toList_repr

end GraphQuery.Text
