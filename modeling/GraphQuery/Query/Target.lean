import GraphQuery.Query.Expr
import GraphQuery.Query.Layout
import GraphQuery.Record

/-!
# Targets

What a statement works on: the rows of a table, one record, or the records that an expression gives.
-/

namespace GraphQuery

namespace Database

/-- The declaration of a table or an edge that has to be declared. -/
def require (db : Database) (table : String) : Except UsageError Declaration :=
  match db.declaration? table with
  | some d => .ok d
  | none => .error (.unknownTable table)

/-- The declaration of an edge that has to be declared. -/
def requireEdge (db : Database) (table : String) : Except UsageError EdgeDecl :=
  match db.require table with
  | .error e => .error e
  | .ok (.edge e) => .ok e
  | .ok (.table _) => .error (.notAnEdge table)

end Database

inductive Target
  | table (name : String)
  | record (ref : RecordRef)
  /-- Records, or the rows of a sub-query. -/
  | expr (content : Expr)

namespace Target

/-- A record reference in text form is a record, any other text a table. -/
def ofText (s : String) : Target :=
  match RecordRef.parse s with
  | some ref => record ref
  | none => table s

def isRecord : Target → Bool
  | record _ => true
  | _ => false

/-- The table whose rows the target addresses, if it is known. -/
def tableName? : Target → Option String
  | table name => some name
  | record ref => some ref.table
  | expr e => e.type.recordTable

/-- The rows of an expression that does not point at one table: what it is resolved to, or the items
of the list it is resolved to. -/
def rowsOf (db : Database) (type : Descriptor) : Descriptor :=
  match db.resolve type.present with
  | .list item => db.resolve item
  | t => t

/-- The shape of a row that the target addresses. Tables that are named must be declared. -/
def rowType (db : Database) : Target → Except UsageError Descriptor
  | table name => (db.require name).map Declaration.recordType
  | record ref => (db.require ref.table).map Declaration.recordType
  | expr e => match e.type.recordTable with
    | some name => (db.require name).map Declaration.recordType
    | none => .ok (rowsOf db e.type)

/-- The shape of a document that is written to the target. If the table is not known, documents have
the shape of the rows, or are any objects if the rows are none. -/
def inputType (db : Database) (target : Target) : Except UsageError Descriptor :=
  match target.tableName? with
  | some name => (db.require name).map Declaration.inputType
  | none => match target.rowType db with
    | .error e => .error e
    | .ok (.object fields) => .ok (.object fields)
    | .ok _ => .ok (.object [])

def layout : Target → Layout
  | table name => [.text (Name.ident name)]
  | record ref =>
    [.text "type::thing(", .value (.string ref.table), .text ", ", .value ref.id, .text ")"]
  | expr e => [.operand e.term]

/-- Render the target. The table and the id of a record are bound one after the other. -/
def render : Target → Rendering String
  | table name => pure (Name.ident name)
  | record ref => do
    let table ← DisplayContext.bind (.string ref.table)
    let id ← DisplayContext.bind ref.id
    return "type::thing(" ++ table ++ ", " ++ id ++ ")"
  | expr e => e.term.node.renderOperand

/-- The target as an end of a relation; a record stands in parentheses. -/
def endpointLayout : Target → Layout
  | record ref => .text "(" :: (record ref).layout ++ [.text ")"]
  | target => target.layout

/-- Render the target as an end of a relation. -/
def renderEndpoint : Target → Rendering String
  | record ref => do return "(" ++ (← (record ref).render) ++ ")"
  | target => target.render

end Target

/-- `ONLY` and a target. -/
def Layout.onlyTarget (only : Bool) (target : Layout) : Layout := Layout.textIf only "ONLY " ++ target

/-- `WHERE` and a condition, if there is one. -/
def Layout.condition : Option Expr → Layout
  | some e => [.text " WHERE ", .term e.term]
  | none => []

/-- Render a condition behind `WHERE`, if there is one. -/
def Expr.renderCondition : Option Expr → Rendering String
  | some e => do return " WHERE " ++ (← e.render)
  | none => pure ""

/-- A condition and one more: both must hold. -/
def Expr.conjoin (condition : Option Expr) (next : Expr) : Option Expr :=
  match condition with
  | some e => some (e.and next)
  | none => some next

end GraphQuery
