/-!
# UUIDs

Thirty-two hexadecimal digits in groups of 8, 4, 4, 4 and 12 with hyphens between them.
-/

namespace GraphQuery.Text

/-- A hexadecimal digit of either case. -/
def isHexDigit (c : Char) : Bool :=
  c.isDigit || (decide ('a' ≤ c) && decide (c ≤ 'f')) || (decide ('A' ≤ c) && decide (c ≤ 'F'))

/-- Groups of hexadecimal digits of the given sizes, a hyphen between two groups. -/
def hexGroups : List Nat → List Char → Bool
  | [], cs => cs.isEmpty
  | [size], cs => cs.length == size && cs.all isHexDigit
  | size :: sizes, cs =>
    (cs.take size).length == size && (cs.take size).all isHexDigit &&
      match cs.drop size with
      | '-' :: rest => hexGroups sizes rest
      | _ => false

/-- The hyphenated form of a UUID; no other form counts. -/
def isUuid (s : String) : Bool := hexGroups [8, 4, 4, 4, 12] s.toList

end GraphQuery.Text
