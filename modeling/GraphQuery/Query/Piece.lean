import GraphQuery.Json.Basic
import GraphQuery.Query.Scope

/-!
# Query text in pieces

What query text consists of, apart from how it is rendered: text as it stands, and raw values. A raw
value never appears in the text. `Compiled.numberFrom` is what rendering on a context comes to: the
values counted from left to right, a placeholder for each, and the values under the names of their
placeholders.
-/

namespace GraphQuery

/-- A part of query text. -/
inductive Piece
  | text (content : String)
  | value (content : Json)

/-- Query text and the values behind its placeholders, in order. -/
structure Compiled where
  text : String
  vars : List (String × Json)

/-- The name of the variable with the given number. -/
def variableName (n : Nat) : String := "_v" ++ toString n

/-- The placeholder of the variable with the given number. -/
def placeholder (n : Nat) : String := "$" ++ variableName n

namespace Compiled

/-- The texts of pieces, with a placeholder for each value; they are numbered from `n` on. -/
def textsFrom : Nat → List Piece → List String
  | _, [] => []
  | n, .text s :: rest => s :: textsFrom n rest
  | n, .value _ :: rest => placeholder n :: textsFrom (n + 1) rest

/-- The values of pieces under the names of their placeholders, which are numbered from `n` on. -/
def valuesFrom : Nat → List Piece → List (String × Json)
  | _, [] => []
  | n, .text _ :: rest => valuesFrom n rest
  | n, .value v :: rest => (variableName n, v) :: valuesFrom (n + 1) rest

/-- Number the values of pieces from `n` on. -/
def numberFrom (n : Nat) (pieces : List Piece) : Compiled :=
  ⟨String.join (textsFrom n pieces), valuesFrom n pieces⟩

/-- The text of pieces and their values. -/
def ofPieces (pieces : List Piece) : Compiled := numberFrom 0 pieces

end Compiled

namespace Piece

/-- Put a separator between groups of pieces. -/
def separated (separator : String) : List (List Piece) → List Piece
  | [] => []
  | [group] => group
  | group :: rest => group ++ text separator :: separated separator rest

/-- Put brackets around pieces. -/
def between (opening closing : String) (pieces : List Piece) : List Piece :=
  text opening :: pieces ++ [text closing]

/-- Write a path segment behind its base. -/
def join (base : List Piece) (segment : String) : List Piece :=
  match base with
  | [text b] => [text (joinPath b segment)]
  | _ => base ++ [text segment]

end Piece

end GraphQuery
