import GraphQuery.Query.Shape
import GraphQuery.Query.Target
import GraphQuery.Query.Trailer

/-!
# DELETE

`DELETE [ONLY] target [WHERE] [RETURN] [TIMEOUT] [PARALLEL]`
-/

namespace GraphQuery

structure Delete where
  scope : ScopeId
  target : Target
  /-- The shape of a stored row. -/
  row : Descriptor
  only : Bool
  condition : Option Expr
  trailer : Trailer

namespace Delete

/-- Delete rows of a target. -/
def of (db : Database) (scope : ScopeId) (target : Target) : Except UsageError Delete :=
  (target.rowType db).map fun row =>
    { scope, target, row, only := false, condition := none, trailer := .empty }

/-- The record being deleted. -/
def record (d : Delete) : Expr := .ofRecord d.scope d.row

/-- Add a condition. -/
def filter (d : Delete) (condition : Expr) : Delete :=
  { d with condition := Expr.conjoin d.condition condition }

def setOnly (d : Delete) : Delete := { d with only := true }

def returnMode (d : Delete) (mode : ReturnMode) : Delete :=
  { d with trailer := d.trailer.setMode mode }

/-- Return one value for each affected record. -/
def returning (d : Delete) (shape : Shape) : Delete :=
  d.returnMode (.value (shape.lower d.scope))

def setTimeout (d : Delete) (span : Duration) : Delete :=
  { d with trailer := d.trailer.setTimeout span }

def setParallel (d : Delete) : Delete := { d with trailer := d.trailer.setParallel }

/-- The shape of the result: nothing comes back unless it is asked for. -/
def output (d : Delete) : Descriptor := d.trailer.output .none d.row d.only

def layout (d : Delete) : Layout :=
  .text "DELETE " :: Layout.onlyTarget d.only d.target.layout ++ Layout.condition d.condition ++
    d.trailer.layout

/-- Render the clauses, inside the scope of the statement. -/
def renderStatement (d : Delete) : Rendering String := do
  let target ← d.target.render
  let condition ← Expr.renderCondition d.condition
  let trailer ← d.trailer.render
  return "DELETE " ++ (if d.only then "ONLY " else "") ++ target ++ condition ++ trailer

end Delete

end GraphQuery
