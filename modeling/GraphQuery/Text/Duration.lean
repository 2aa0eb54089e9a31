/-!
# Durations

A duration is written as a whole number of the largest unit that divides it.
-/

namespace GraphQuery

/-- A span of time, exact to the nanosecond. -/
structure Duration where
  nanoseconds : Nat
  deriving DecidableEq, Repr

namespace Duration

/-- Seconds and nanoseconds taken together. -/
def ofParts (seconds nanoseconds : Nat) : Duration := ⟨seconds * 1000000000 + nanoseconds⟩

/-- The units and their lengths in nanoseconds, the largest first. -/
def units : List (String × Nat) :=
  [("h", 3600000000000), ("m", 60000000000), ("s", 1000000000), ("ms", 1000000), ("us", 1000),
    ("ns", 1)]

/-- A whole number of the largest unit that divides the duration; no time at all is `0ms`. -/
def render (d : Duration) : String :=
  if d.nanoseconds = 0 then "0ms"
  else match units.find? fun unit => d.nanoseconds % unit.2 == 0 with
    | some (name, length) => toString (d.nanoseconds / length) ++ name
    | none => toString d.nanoseconds ++ "ns"

end Duration

end GraphQuery
