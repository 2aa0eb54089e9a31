import GraphQuery.Json.Text

/-!
# Spaces in JSON text

Between the tokens of JSON text spaces mean nothing, in a string literal they do. `Json.withoutSpaces`
leaves out those of the first kind.
-/

namespace GraphQuery.Json

/-- Where a reader is in JSON text. -/
inductive TextPlace
  | outside
  /-- In a string literal. -/
  | literal
  /-- Behind a backslash in a string literal. -/
  | escaped
  deriving DecidableEq, Repr

/-- The place behind a character. -/
def TextPlace.behind : TextPlace → Char → TextPlace
  | outside, c => if c = '"' then literal else outside
  | literal, c => if c = '\\' then escaped else if c = '"' then outside else literal
  | escaped, _ => literal

/-- Read on from a place without the spaces outside of string literals. -/
def squeeze : TextPlace → List Char → List Char
  | _, [] => []
  | place, c :: rest =>
    if place = .outside ∧ c = ' ' then squeeze place rest else c :: squeeze (place.behind c) rest

/-- The text without the spaces outside of string literals. -/
def withoutSpaces (text : String) : String := String.ofList (squeeze .outside text.toList)

end GraphQuery.Json
