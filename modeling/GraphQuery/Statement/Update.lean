import GraphQuery.Query.Payload
import GraphQuery.Query.Shape
import GraphQuery.Query.Target
import GraphQuery.Query.Trailer

/-!
# UPDATE and UPSERT

`UPDATE [ONLY] target [payload] [WHERE] [RETURN] [TIMEOUT] [PARALLEL]`. An upsert is an update that
creates the records that are missing.
-/

namespace GraphQuery

structure Update where
  scope : ScopeId
  /-- Missing records are created. -/
  upsert : Bool
  target : Target
  /-- The shape of a stored row. -/
  row : Descriptor
  /-- The shape of a document for a new row. -/
  input : Descriptor
  only : Bool
  payload : PayloadSlot
  condition : Option Expr
  trailer : Trailer

namespace Update

/-- Update, or upsert, the rows of a target. -/
def of (db : Database) (scope : ScopeId) (upsert : Bool) (target : Target) :
    Except UsageError Update := do
  let row ← target.rowType db
  let input ← target.inputType db
  return { scope, upsert, target, row, input, only := false, payload := none, condition := none,
           trailer := .empty }

/-- The record being updated. -/
def record (u : Update) : Expr := .ofRecord u.scope u.row

/-- Put a new payload into the statement. -/
def withPayload (u : Update) (r : Except QueryError PayloadSlot) : Except QueryError Update :=
  r.map fun payload => { u with payload := payload }

/-- Assign a field. -/
def assign (u : Update) (field : String) (op : AssignOp) (value : Operand) : Except QueryError Update :=
  u.withPayload (u.payload.assign u.input u.scope field op value)

/-- Write a whole document. -/
def content (u : Update) (document : Json) : Except QueryError Update :=
  u.withPayload (u.payload.content u.input document)

/-- Merge a partial document into the record. -/
def merge (u : Update) (document : Json) : Except QueryError Update :=
  u.withPayload (u.payload.merge u.input document)

/-- Apply a patch. -/
def patch (u : Update) (operations : List PatchOp) : Except QueryError Update :=
  u.withPayload (u.payload.patch operations)

/-- Write a whole document in place of the record. -/
def replace (u : Update) (document : Json) : Except QueryError Update :=
  u.withPayload (u.payload.replace u.input document)

/-- Add a condition. -/
def filter (u : Update) (condition : Expr) : Update :=
  { u with condition := Expr.conjoin u.condition condition }

def setOnly (u : Update) : Update := { u with only := true }

def returnMode (u : Update) (mode : ReturnMode) : Update :=
  { u with trailer := u.trailer.setMode mode }

/-- Return one value for each affected record. -/
def returning (u : Update) (shape : Shape) : Update :=
  u.returnMode (.value (shape.lower u.scope))

def setTimeout (u : Update) (d : Duration) : Update :=
  { u with trailer := u.trailer.setTimeout d }

def setParallel (u : Update) : Update := { u with trailer := u.trailer.setParallel }

/-- The shape of the result: the updated record unless another mode is set. -/
def output (u : Update) : Descriptor := u.trailer.output .after u.row u.only

def keyword (u : Update) : String := if u.upsert then "UPSERT" else "UPDATE"

def layout (u : Update) : Layout :=
  .text (u.keyword ++ " ") :: Layout.onlyTarget u.only u.target.layout ++ u.payload.layout ++
    Layout.condition u.condition ++ u.trailer.layout

/-- Render the clauses, inside the scope of the statement. -/
def renderStatement (u : Update) : Rendering String := do
  let target ← u.target.render
  let payload ← u.payload.render
  let condition ← Expr.renderCondition u.condition
  let trailer ← u.trailer.render
  return u.keyword ++ " " ++ (if u.only then "ONLY " else "") ++ target ++ payload ++ condition ++
    trailer

end Update

end GraphQuery
