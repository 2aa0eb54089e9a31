import GraphQuery.Query.Payload
import GraphQuery.Query.Shape
import GraphQuery.Query.Target
import GraphQuery.Query.Trailer

/-!
# RELATE

`RELATE [ONLY] source->edge->target [SET | CONTENT] [RETURN] [TIMEOUT] [PARALLEL]`
-/

namespace GraphQuery

structure Relate where
  scope : ScopeId
  edge : String
  source : Target
  target : Target
  /-- The shape of a stored row of the edge. -/
  row : Descriptor
  /-- The shape of a document for a new row of the edge. -/
  input : Descriptor
  only : Bool
  payload : PayloadSlot
  trailer : Trailer

namespace Relate

/-- An end of an edge is a record of one of the declared tables, or an expression. -/
def checkEndpoint (edge : String) (side : Side) (endpoint : Target) (allowed : List String) :
    Except UsageError Unit :=
  match endpoint with
  | .table name => .error (.invalidEndpoint side name)
  | .record ref =>
    if allowed.contains ref.table then .ok () else .error (.endpointMismatch edge side ref.table)
  | .expr _ => .ok ()

/-- Relate records by a declared edge. -/
def of (db : Database) (scope : ScopeId) (edge : String) (source target : Target) :
    Except UsageError Relate := do
  let decl ← db.requireEdge edge
  checkEndpoint edge .source source decl.sources
  checkEndpoint edge .target target decl.targets
  return { scope, edge, source, target, row := (Declaration.edge decl).recordType,
           input := (Declaration.edge decl).inputType, only := false, payload := none,
           trailer := .empty }

/-- The row of the edge being created. -/
def record (r : Relate) : Expr := .ofRecord r.scope r.row

/-- Put a new payload into the statement. -/
def withPayload (r : Relate) (slot : Except QueryError PayloadSlot) : Except QueryError Relate :=
  slot.map fun payload => { r with payload := payload }

/-- Assign a field. -/
def assign (r : Relate) (field : String) (op : AssignOp) (value : Operand) : Except QueryError Relate :=
  r.withPayload (r.payload.assign r.input r.scope field op value)

/-- Write a whole document. -/
def content (r : Relate) (document : Json) : Except QueryError Relate :=
  r.withPayload (r.payload.content r.input document)

def setOnly (r : Relate) : Relate := { r with only := true }

def returnMode (r : Relate) (mode : ReturnMode) : Relate :=
  { r with trailer := r.trailer.setMode mode }

/-- Return one value for each affected record. -/
def returning (r : Relate) (shape : Shape) : Relate :=
  r.returnMode (.value (shape.lower r.scope))

def setTimeout (r : Relate) (d : Duration) : Relate :=
  { r with trailer := r.trailer.setTimeout d }

def setParallel (r : Relate) : Relate := { r with trailer := r.trailer.setParallel }

/-- The shape of the result: the created row unless another mode is set. -/
def output (r : Relate) : Descriptor := r.trailer.output .after r.row r.only

def layout (r : Relate) : Layout :=
  .text "RELATE " :: Layout.textIf r.only "ONLY " ++ r.source.endpointLayout ++
    .text ("->" ++ Name.ident r.edge ++ "->") :: r.target.endpointLayout ++ r.payload.layout ++
    r.trailer.layout

/-- Render the clauses, inside the scope of the statement. Both ends are rendered before either is
written. -/
def renderStatement (r : Relate) : Rendering String := do
  let source ← r.source.renderEndpoint
  let target ← r.target.renderEndpoint
  let payload ← r.payload.render
  let trailer ← r.trailer.render
  return "RELATE " ++ (if r.only then "ONLY " else "") ++ source ++ "->" ++ Name.ident r.edge ++
    "->" ++ target ++ payload ++ trailer

end Relate

end GraphQuery
