import GraphQuery.Text.Blank

/-!
# Text that is made of lines

The other direction of `Text.lines`: lines, each with the end it has, are put together to a text.
-/

namespace GraphQuery.Text

/-- What ends a line. -/
inductive LineEnd
  | lineFeed
  | carriageReturn
  deriving DecidableEq, Repr

/-- A carriage return ends a line together with the line feed behind it. -/
def LineEnd.chars : LineEnd → List Char
  | .lineFeed => ['\n']
  | .carriageReturn => ['\r', '\n']

/-- Lines that are ended one by one, and what stands behind the last end: nothing in a text that ends with a
line feed. No line feed is inside a line. -/
structure LinedText where
  ended : List (List Char × LineEnd)
  last : List Char
  unbroken : ∀ line ∈ ended.map Prod.fst ++ [last], '\n' ∉ line

namespace LinedText

/-- All lines, from the first one on. -/
def lines (t : LinedText) : List (List Char) := t.ended.map Prod.fst ++ [t.last]

def chars (t : LinedText) : List Char := t.ended.flatMap (fun line => line.1 ++ line.2.chars) ++ t.last

def text (t : LinedText) : String := String.ofList t.chars

end LinedText

end GraphQuery.Text
