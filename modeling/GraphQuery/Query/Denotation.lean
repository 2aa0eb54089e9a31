import GraphQuery.Query.Reading
import GraphQuery.Query.Shape

/-!
# What a query without records says

In the text of a query every placeholder stands for a value. `Compiled.filled` puts the values in their
places. A shape whose leaves are raw values is a JSON value itself, `Shape.json?`.
-/

namespace GraphQuery

/-- The characters of a lexeme, with the compact text of its value for a variable. -/
def Reading.Lexeme.filled (vars : List (String × Json)) : Lexeme → List Char
  | char c => [c]
  | parameter name => match vars.lookup name with
    | some v => v.compact.toList
    | none => (parameter name).chars

/-- The text with the compact text of its value in the place of every placeholder. -/
def Compiled.filled (c : Compiled) : String :=
  String.ofList ((Reading.lexemes c.text).flatMap (Reading.Lexeme.filled c.vars))

namespace Shape

mutual

/-- The tree read as a JSON value, if all of its leaves are raw values. -/
def json? : Shape → Option Json
  | expr _ => none
  | value v => some v
  | object entries => (jsonEntries? entries).map .object
  | array items => (jsonItems? items).map .array

def jsonEntries? : List (String × Shape) → Option (List (String × Json))
  | [] => some []
  | (key, s) :: rest => match json? s, jsonEntries? rest with
    | some v, some fields => some ((key, v) :: fields)
    | _, _ => none

def jsonItems? : List Shape → Option (List Json)
  | [] => some []
  | s :: rest => match json? s, jsonItems? rest with
    | some v, some items => some (v :: items)
    | _, _ => none

end

end Shape

end GraphQuery
