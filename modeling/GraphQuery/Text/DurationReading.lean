import GraphQuery.Text.Digits
import GraphQuery.Text.Duration

/-!
# Reading durations

A duration in text is a decimal count and, right behind it, the name of a unit.
-/

namespace GraphQuery.Duration

/-- The length of a unit in nanoseconds. -/
def unit? (name : String) : Option Nat :=
  match name with
  | "ns" => some 1
  | "us" => some 1000
  | "ms" => some (1000 * 1000)
  | "s" => some (1000 * 1000 * 1000)
  | "m" => some (60 * 1000 * 1000 * 1000)
  | "h" => some (60 * 60 * 1000 * 1000 * 1000)
  | _ => none

/-- The count and the length of the unit in a text. -/
def readParts? (text : String) : Option (Nat × Nat) :=
  let count := text.toList.takeWhile Char.isDigit
  let name := String.ofList (text.toList.dropWhile Char.isDigit)
  if count = [] then none else (unit? name).map fun length => (Text.spelled count, length)

end GraphQuery.Duration
