import GraphQuery.Query.Payload
import GraphQuery.Query.Shape
import GraphQuery.Query.Target
import GraphQuery.Query.Trailer

/-!
# INSERT

`INSERT [RELATION] [IGNORE] INTO table data [ON DUPLICATE KEY UPDATE] [RETURN] [TIMEOUT] [PARALLEL]`.
The data are rows for a list of fields, or documents.
-/

namespace GraphQuery

/-- What is inserted. -/
inductive InsertData
  | empty
  /-- One value for each field in every row. -/
  | rows (fields : List String) (rows : List (List Json))
  | documents (documents : List Json)

namespace InsertData

def rowLayout (row : List Json) : Layout :=
  .text "(" :: Layout.separated ", " (row.map fun v => [.value v]) ++ [.text ")"]

/-- Documents are bound as one value: a single one by itself, else their list. -/
def layout : InsertData → Layout
  | empty => [.value (.array [])]
  | rows fields lines =>
    .text ("(" ++ Name.idioms fields ++ ") VALUES ") :: Layout.separated ", " (lines.map rowLayout)
  | documents [one] => [.value one]
  | documents many => [.value (.array many)]

def renderRow (row : List Json) : Rendering String := do
  let texts ← row.mapM DisplayContext.bind
  return "(" ++ ", ".intercalate texts ++ ")"

def render : InsertData → Rendering String
  | empty => DisplayContext.bind (.array [])
  | rows fields lines => do
    let texts ← lines.mapM renderRow
    return "(" ++ Name.idioms fields ++ ") VALUES " ++ ", ".intercalate texts
  | documents [one] => DisplayContext.bind one
  | documents many => DisplayContext.bind (.array many)

end InsertData

structure Insert where
  scope : ScopeId
  table : String
  relation : Bool
  /-- The shape of a stored row. -/
  row : Descriptor
  /-- The shape of a document for a new row. -/
  input : Descriptor
  ignore : Bool
  data : InsertData
  onDuplicate : List Assignment
  trailer : Trailer

namespace Insert

/-- Insert into a declared table. -/
def start (scope : ScopeId) (relation : Bool) (d : Declaration) : Insert :=
  { scope, table := d.name, relation, row := d.recordType, input := d.inputType, ignore := false,
    data := .empty, onDuplicate := [], trailer := .empty }

/-- Insert rows of a table. -/
def of (db : Database) (scope : ScopeId) (table : String) : Except UsageError Insert :=
  (db.require table).map (start scope false)

/-- Insert rows of an edge, which carry their own ends. -/
def ofEdge (db : Database) (scope : ScopeId) (edge : String) : Except UsageError Insert :=
  (db.requireEdge edge).map fun e => start scope true (.edge e)

/-- The record that is there already when a row is rejected. -/
def record (i : Insert) : Expr := .ofRecord i.scope i.row

/-- The row that is rejected because its record is there already. -/
def rejected (i : Insert) : Expr := ⟨i.scope, i.input, .input⟩

def returnMode (i : Insert) (mode : ReturnMode) : Insert :=
  { i with trailer := i.trailer.setMode mode }

/-- Return one value for each affected record. -/
def returning (i : Insert) (shape : Shape) : Insert :=
  i.returnMode (.value (shape.lower i.scope))

def setTimeout (i : Insert) (d : Duration) : Insert :=
  { i with trailer := i.trailer.setTimeout d }

def setParallel (i : Insert) : Insert := { i with trailer := i.trailer.setParallel }

/-- Skip rows whose record is there already. -/
def setIgnore (i : Insert) : Insert := { i with ignore := true }

/-- Declare the fields of the rows to come. -/
def fields (i : Insert) (names : List String) : Except QueryError Insert :=
  match i.data with
  | .documents _ => .error (.usage (.conflict .fields .content))
  | .rows _ (_ :: _) => .error (.usage (.conflict .fields .values))
  | _ => .ok { i with data := .rows names [] }

/-- The values of a row have the shapes of their fields. -/
def checkRow (input : Descriptor) : List String → List Json → Except TypeError Unit
  | name :: names, v :: vs =>
    match Document.checkAssignment input name v with
    | .error e => .error e
    | .ok () => checkRow input names vs
  | _, _ => .ok ()

/-- Add a row, one value for each field. -/
def values (i : Insert) (row : List Json) : Except QueryError Insert :=
  match i.data with
  | .rows names rows =>
    if row.length = names.length then
      match checkRow i.input names row with
      | .error e => .error (.type e)
      | .ok () => .ok { i with data := .rows names (rows ++ [row]) }
    else .error (.usage (.insertArity names.length row.length rows.length))
  | _ => .error (.usage .valuesBeforeFields)

/-- The documents that a value stands for: the items of a list, or itself. -/
def documentsOf : Json → List Json
  | .array documents => documents
  | document => [document]

/-- Add a document or a list of documents; keys that are not declared are dropped. -/
def content (i : Insert) (document : Json) : Except QueryError Insert :=
  match i.data with
  | .rows _ _ => .error (.usage (.conflict .content .fields))
  | data =>
    match (documentsOf document).mapM i.input.parse with
    | .error e => .error (.type e)
    | .ok parsed =>
      match data with
      | .documents existing => .ok { i with data := .documents (existing ++ parsed) }
      | _ => .ok { i with data := .documents parsed }

/-- Assign a field of the record that is there already. -/
def onDuplicateSet (i : Insert) (field : String) (value : Operand) : Except QueryError Insert := do
  match value with
  | .value v => PayloadSlot.typed (Document.checkAssignment i.input field v)
  | .expr _ => pure ()
  return { i with onDuplicate := i.onDuplicate ++ [⟨field, .assign, value.lift i.scope⟩] }

/-- Assign a field of the record that is there already, by any operator. -/
def onDuplicateWith (i : Insert) (field : String) (op : AssignOp) (value : Expr) : Insert :=
  { i with onDuplicate := i.onDuplicate ++ [⟨field, op, value⟩] }

/-- The shape of the result: the inserted records unless another mode is set. -/
def output (i : Insert) : Descriptor := i.trailer.output .after i.row false

def onDuplicateLayout (assignments : List Assignment) : Layout :=
  if assignments.isEmpty then []
  else .text " ON DUPLICATE KEY UPDATE " :: Assignment.layouts assignments

def layout (i : Insert) : Layout :=
  .text "INSERT " :: Layout.textIf i.relation "RELATION " ++ Layout.textIf i.ignore "IGNORE " ++
    .text ("INTO " ++ Name.ident i.table ++ " ") :: i.data.layout ++
    onDuplicateLayout i.onDuplicate ++ i.trailer.layout

/-- Render all assignments, then write them behind their keyword. -/
def renderOnDuplicate (assignments : List Assignment) : Rendering String := do
  if assignments.isEmpty then return ""
  let texts ← assignments.mapM Assignment.render
  return " ON DUPLICATE KEY UPDATE " ++ ", ".intercalate texts

/-- Render the clauses, inside the scope of the statement. -/
def renderStatement (i : Insert) : Rendering String := do
  let data ← i.data.render
  let onDuplicate ← renderOnDuplicate i.onDuplicate
  let trailer ← i.trailer.render
  return "INSERT " ++ (if i.relation then "RELATION " else "") ++
    (if i.ignore then "IGNORE " else "") ++ "INTO " ++ Name.ident i.table ++ " " ++ data ++
    onDuplicate ++ trailer

end Insert

end GraphQuery
