import GraphQuery.Query.Payload
import GraphQuery.Query.Shape
import GraphQuery.Query.Target
import GraphQuery.Query.Trailer

/-!
# CREATE

`CREATE [ONLY] target [SET | CONTENT] [RETURN] [TIMEOUT] [PARALLEL]`
-/

namespace GraphQuery

structure Create where
  scope : ScopeId
  target : Target
  /-- The shape of a stored row. -/
  row : Descriptor
  /-- The shape of a document for a new row. -/
  input : Descriptor
  only : Bool
  payload : PayloadSlot
  trailer : Trailer

namespace Create

/-- Create rows of a target. -/
def of (db : Database) (scope : ScopeId) (target : Target) : Except UsageError Create := do
  let row ← target.rowType db
  let input ← target.inputType db
  return { scope, target, row, input, only := false, payload := none, trailer := .empty }

/-- The record being created. -/
def record (c : Create) : Expr := .ofRecord c.scope c.row

/-- Put a new payload into the statement. -/
def withPayload (c : Create) (r : Except QueryError PayloadSlot) : Except QueryError Create :=
  r.map fun payload => { c with payload := payload }

/-- Assign a field. -/
def assign (c : Create) (field : String) (op : AssignOp) (value : Operand) : Except QueryError Create :=
  c.withPayload (c.payload.assign c.input c.scope field op value)

/-- Write a whole document. -/
def content (c : Create) (document : Json) : Except QueryError Create :=
  c.withPayload (c.payload.content c.input document)

def setOnly (c : Create) : Create := { c with only := true }

def returnMode (c : Create) (mode : ReturnMode) : Create :=
  { c with trailer := c.trailer.setMode mode }

/-- Return one value for each affected record. -/
def returning (c : Create) (shape : Shape) : Create :=
  c.returnMode (.value (shape.lower c.scope))

def setTimeout (c : Create) (d : Duration) : Create :=
  { c with trailer := c.trailer.setTimeout d }

def setParallel (c : Create) : Create := { c with trailer := c.trailer.setParallel }

/-- The shape of the result: the created record unless another mode is set. -/
def output (c : Create) : Descriptor := c.trailer.output .after c.row c.only

def layout (c : Create) : Layout :=
  .text "CREATE " :: Layout.onlyTarget c.only c.target.layout ++ c.payload.layout ++
    c.trailer.layout

/-- Render the clauses, inside the scope of the statement. -/
def renderStatement (c : Create) : Rendering String := do
  let target ← c.target.render
  let payload ← c.payload.render
  let trailer ← c.trailer.render
  return "CREATE " ++ (if c.only then "ONLY " else "") ++ target ++ payload ++ trailer

end Create

end GraphQuery
