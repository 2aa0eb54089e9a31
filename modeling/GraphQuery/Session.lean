import GraphQuery.Statement.Basic

/-!
# Sessions

A statement is executed over a connection, which gets its text and values and returns one result for
each statement. Results are parsed against the shape that the statement promises.
-/

namespace GraphQuery

/-- A connection: one result for each statement, or a message why it failed. -/
abbrev Transport := Compiled → Except String (List Json)

namespace Session

/-- Run compiled text; exactly `expected` results must come back. -/
def run (transport : Transport) (compiled : Compiled) (expected : Nat) :
    Except QueryError (List Json) :=
  match transport compiled with
  | .error message => .error (.transport message)
  | .ok results =>
    if results.length = expected then .ok results
    else .error (.results expected results.length)

/-- Parse the result of a statement, unless the statement passes it through. -/
def parseResult (db : Database) (s : Statement) (v : Json) : Except TypeError Json :=
  if s.checksOutput then (s.output db).parse v else .ok v

/-- Execute a statement. -/
def execute (db : Database) (transport : Transport) (s : Statement) : Except QueryError Json := do
  let results ← run transport s.compile 1
  (parseResult db s (results.headD .null)).mapError .type

/-- Execute a statement and read its result as an `α`. -/
def executeAs {α : Type} (db : Database) (transport : Transport) (d : Decoder α) (s : Statement) :
    Except QueryError α := do
  let v ← execute db transport s
  (d.ofJson v).mapError .decode

/-- Parse one result for each statement, up to the first that fails. -/
def parseResults (db : Database) : List Statement → List Json → Except TypeError (List Json)
  | s :: statements, v :: results =>
    match parseResult db s v with
    | .error e => .error e
    | .ok w => (parseResults db statements results).map (w :: ·)
  | _, _ => .ok []

/-- Execute statements as one transaction. -/
def executeBatch (db : Database) (transport : Transport) (statements : List Statement) :
    Except QueryError (List Json) := do
  let results ← run transport (Statement.compileBatch statements) statements.length
  (parseResults db statements results).mapError .type

end Session

end GraphQuery
