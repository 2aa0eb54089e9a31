import GraphQuery.Decode.Error
import GraphQuery.Descriptor.Describe

/-!
# Errors of queries

A `UsageError` is a call that cannot be made on a statement. `QueryError` is everything that building
or executing a statement can fail with.
-/

namespace GraphQuery

/-- The clauses that exclude one another. -/
inductive Clause
  | set | content | merge | patch | replace | fields | values
  deriving DecidableEq, Repr

def Clause.name : Clause → String
  | set => "set()"
  | content => "content()"
  | merge => "merge()"
  | patch => "patch()"
  | replace => "replace()"
  | fields => "fields()"
  | values => "values()"

/-- An end of an edge. -/
inductive Side
  | source
  | target
  deriving DecidableEq, Repr

/-- The key that holds an end of an edge. -/
def Side.key : Side → String
  | source => "in"
  | target => "out"

/-- A call that cannot be made. -/
inductive UsageError
  | conflict (clause existing : Clause)
  | unknownTable (table : String)
  | notAnEdge (table : String)
  | endpointMismatch (edge : String) (side : Side) (table : String)
  | invalidEndpoint (side : Side) (table : String)
  | valuesBeforeFields
  | insertArity (expected got row : Nat)
  | unknownMethod (method : String) (tag : Tag)
  | methodArity (method : String) (expected : String) (got : Nat)
  deriving DecidableEq, Repr

def UsageError.message : UsageError → String
  | conflict clause existing =>
    "cannot use `" ++ clause.name ++ "` because `" ++ existing.name ++
      "` is already set on this statement"
  | unknownTable table => "table `" ++ table ++ "` is not declared"
  | notAnEdge table => "`" ++ table ++ "` is not an edge table"
  | endpointMismatch edge side table =>
    "edge `" ++ edge ++ "` does not accept `" ++ table ++ "` on its `" ++ side.key ++ "` side"
  | invalidEndpoint side table =>
    "`" ++ side.key ++ "` endpoint of a relation must be a record or an expression, found table `" ++
      table ++ "`"
  | valuesBeforeFields => "`values()` called before `fields()`"
  | insertArity expected got row =>
    "insert row " ++ toString row ++ " has " ++ toString got ++ " values but " ++ toString expected ++
      " fields were declared"
  | unknownMethod method tag => "no method `" ++ method ++ "` on " ++ tag.name
  | methodArity method expected got =>
    "`" ++ method ++ "` takes " ++ expected ++ " arguments, got " ++ toString got

/-- Everything that a statement can fail with. -/
inductive QueryError
  | type (error : TypeError)
  | usage (error : UsageError)
  | decode (error : DecodeError)
  /-- The connection failed, with a message of its own. -/
  | transport (message : String)
  /-- The connection returned the wrong number of results. -/
  | results (expected got : Nat)

def QueryError.message : QueryError → String
  | type e => e.message
  | usage e => e.message
  | decode e => "at JSON path " ++ e.pathText ++ " → " ++ e.message
  | transport message => message
  | results expected got =>
    "transport returned " ++ toString got ++ " statement results, expected " ++ toString expected

end GraphQuery
