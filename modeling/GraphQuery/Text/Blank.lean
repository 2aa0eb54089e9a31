/-!
# Blank characters

The characters with the Unicode property White_Space, and the lines of a text.
-/

namespace GraphQuery.Text

/-- Code points with the property White_Space, as ranges. -/
def blankRanges : List (Nat × Nat) :=
  [(0x9, 0xD), (0x20, 0x20), (0x85, 0x85), (0xA0, 0xA0), (0x1680, 0x1680), (0x2000, 0x200A),
    (0x2028, 0x2029), (0x202F, 0x202F), (0x205F, 0x205F), (0x3000, 0x3000)]

/-- A blank character. -/
def isBlank (c : Char) : Bool :=
  blankRanges.any fun (least, greatest) => decide (least ≤ c.toNat) && decide (c.toNat ≤ greatest)

/-- A line of blank characters only. -/
def isBlankLine (line : List Char) : Bool := line.all isBlank

example : (blankRanges.map fun (a, b) => b - a + 1).sum = 25 := by decide

/-- The lines of a text. A line ends at a line feed, and a carriage return right before the line
feed is part of the end; a text that ends with a line feed has no further, empty line. -/
def lines : List Char → List (List Char)
  | [] => []
  | '\n' :: rest => [] :: lines rest
  | '\r' :: '\n' :: rest => [] :: lines rest
  | c :: rest => match lines rest with
    | [] => [[c]]
    | line :: more => (c :: line) :: more

end GraphQuery.Text
