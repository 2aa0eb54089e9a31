import GraphQuery.Query.Shape
import GraphQuery.Query.Target
import GraphQuery.Query.Trailer

/-!
# SELECT

`SELECT projection FROM [ONLY] target [WHERE] [SPLIT] [GROUP] [ORDER] [LIMIT] [START] [FETCH]
[TIMEOUT] [PARALLEL]`
-/

namespace GraphQuery

/-- What is selected of each row. -/
inductive Projection
  | all
  | fields (paths : List String)
  | value (content : Expr)

inductive Direction
  | asc
  | desc
  deriving DecidableEq, Repr

def Direction.token : Direction → String
  | asc => "ASC"
  | desc => "DESC"

/-- One criterion of the order of rows. -/
structure Order where
  criterion : Expr
  direction : Direction
  collate : Bool
  numeric : Bool

def Order.layout (o : Order) : Layout :=
  .term o.criterion.term :: Layout.textIf o.collate " COLLATE" ++
    Layout.textIf o.numeric " NUMERIC" ++ [.text (" " ++ o.direction.token)]

def Order.render (o : Order) : Rendering String := do
  let criterion ← o.criterion.render
  return criterion ++ (if o.collate then " COLLATE" else "") ++
    (if o.numeric then " NUMERIC" else "") ++ " " ++ o.direction.token

/-- How rows are grouped. -/
inductive Group
  | all
  | by (paths : List String)
  deriving DecidableEq, Repr

def Group.layout : Group → Layout
  | all => [.text " GROUP ALL"]
  | .by paths => [.text (" GROUP BY " ++ Name.idioms paths)]

def Group.text : Group → String
  | all => " GROUP ALL"
  | .by paths => " GROUP BY " ++ Name.idioms paths

structure Select where
  scope : ScopeId
  target : Target
  /-- The shape of a row of the target. -/
  row : Descriptor
  projection : Projection
  only : Bool
  condition : Option Expr
  split : List String
  group : Option Group
  order : List Order
  limit : Option Nat
  start : Option Nat
  fetch : List String
  timeout : Option Duration
  parallel : Bool

namespace Select

/-- Select all fields of the rows of a target. -/
def of (db : Database) (scope : ScopeId) (target : Target) : Except UsageError Select :=
  (target.rowType db).map fun row =>
    { scope, target, row, projection := .all, only := false, condition := none, split := [],
      group := none, order := [], limit := none, start := none, fetch := [], timeout := none,
      parallel := false }

/-- The row being selected. -/
def record (s : Select) : Expr := .ofRecord s.scope s.row

def setOnly (s : Select) : Select := { s with only := true }

/-- Add a condition. -/
def filter (s : Select) (condition : Expr) : Select :=
  { s with condition := Expr.conjoin s.condition condition }

/-- Select fields by their paths. -/
def fields (s : Select) (paths : List String) : Select := { s with projection := .fields paths }

/-- Select one value for each row. -/
def project (s : Select) (shape : Shape) : Select :=
  { s with projection := .value (shape.lower s.scope) }

def splitOn (s : Select) (paths : List String) : Select := { s with split := s.split ++ paths }

/-- Group by more fields. -/
def groupBy (s : Select) (paths : List String) : Select :=
  { s with group := match s.group with
      | some (.by existing) => some (.by (existing ++ paths))
      | _ => some (.by paths) }

def groupAll (s : Select) : Select := { s with group := some .all }

def orderBy (s : Select) (criterion : Expr) (direction : Direction) : Select :=
  { s with order := s.order ++ [⟨criterion, direction, false, false⟩] }

/-- Order by a field path of the row. -/
def orderByField (s : Select) (path : String) (direction : Direction) (collate numeric : Bool) :
    Select :=
  { s with order := s.order ++
      [⟨⟨s.scope, s.row.atPath path, .fieldPath path⟩, direction, collate, numeric⟩] }

def setLimit (s : Select) (n : Nat) : Select := { s with limit := some n }

def setStart (s : Select) (n : Nat) : Select := { s with start := some n }

/-- Replace links at these fields by the rows they lead to. -/
def fetchFields (s : Select) (paths : List String) : Select := { s with fetch := s.fetch ++ paths }

def setTimeout (s : Select) (d : Duration) : Select := { s with timeout := some d }

def setParallel (s : Select) : Select := { s with parallel := true }

/-- Put a descriptor at a path of nested objects; a part that is no object keeps what it has. -/
def insertPath (fields : List (String × Descriptor)) (path : List String) (t : Descriptor) :
    List (String × Descriptor) :=
  match path with
  | [] => fields
  | [last] => Fields.insert fields last t
  | head :: rest =>
    match fields.lookup head with
    | none => Fields.insert fields head (.object (insertPath [] rest t))
    | some (.object inner) => Fields.insert fields head (.object (insertPath inner rest t))
    | some _ => fields

/-- The fields at the given paths of a row, nested as the paths are. -/
def selectedFields (row : Descriptor) (paths : List String) : List (String × Descriptor) :=
  paths.foldl (fun fields path => insertPath fields (Name.parts path) (row.atPath path)) []

/-- Follow the links at the fields of the given names. -/
def fetched (db : Database) (names : List String) : Descriptor → Descriptor
  | .object fields => .object (names.foldl (fun fields name =>
      match fields.lookup name with
      | some t => Fields.insert fields name (db.resolve t)
      | none => fields) fields)
  | t => t

/-- The shape of one selected row. -/
def rowType (db : Database) (s : Select) : Descriptor :=
  match s.projection with
  | .all => fetched db s.fetch s.row
  | .fields paths => fetched db s.fetch (.object (selectedFields s.row paths))
  | .value e => e.type

/-- The shape of the result: the row or null, or a list of rows. -/
def output (db : Database) (s : Select) : Descriptor :=
  if s.only then .unionOf [s.rowType db, .null] else .list (s.rowType db)

def projectionLayout : Projection → Layout
  | .all => [.text "*"]
  | .fields paths => [.text (Name.idioms paths)]
  | .value e => [.text "VALUE ", .term e.term]

def orderLayout (order : List Order) : Layout :=
  if order.isEmpty then []
  else .text " ORDER BY " :: Layout.separated ", " (order.map Order.layout)

/-- A number that is bound like any other value. -/
def boundLayout (keyword : String) : Option Nat → Layout
  | some n => [.text keyword, .value (.int n)]
  | none => []

def layout (s : Select) : Layout :=
  .text "SELECT " :: projectionLayout s.projection ++ .text " FROM " ::
    Layout.onlyTarget s.only s.target.layout ++ Layout.condition s.condition ++
    Layout.paths " SPLIT " s.split ++
    (match s.group with
      | some g => g.layout
      | none => []) ++
    orderLayout s.order ++ boundLayout " LIMIT " s.limit ++ boundLayout " START " s.start ++
    Layout.paths " FETCH " s.fetch ++ Layout.limits s.timeout s.parallel

def renderProjection : Projection → Rendering String
  | .all => pure "*"
  | .fields paths => pure (Name.idioms paths)
  | .value e => do return "VALUE " ++ (← e.render)

/-- Render all criteria, then write them behind their keyword. -/
def renderOrder (order : List Order) : Rendering String := do
  if order.isEmpty then return ""
  let texts ← order.mapM Order.render
  return " ORDER BY " ++ ", ".intercalate texts

def renderBound (keyword : String) : Option Nat → Rendering String
  | some n => do return keyword ++ (← DisplayContext.bind (.int n))
  | none => pure ""

/-- Render the clauses, inside the scope of the statement. -/
def renderStatement (s : Select) : Rendering String := do
  let projection ← renderProjection s.projection
  let target ← s.target.render
  let condition ← Expr.renderCondition s.condition
  let order ← renderOrder s.order
  let limit ← renderBound " LIMIT " s.limit
  let start ← renderBound " START " s.start
  return "SELECT " ++ projection ++ " FROM " ++ (if s.only then "ONLY " else "") ++ target ++
    condition ++ Layout.pathsText " SPLIT " s.split ++
    (match s.group with
      | some g => g.text
      | none => "") ++
    order ++ limit ++ start ++ Layout.pathsText " FETCH " s.fetch ++
    Layout.limitsText s.timeout s.parallel

end Select

end GraphQuery
