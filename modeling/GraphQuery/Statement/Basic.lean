import GraphQuery.Statement.Create
import GraphQuery.Statement.Delete
import GraphQuery.Statement.Insert
import GraphQuery.Statement.Relate
import GraphQuery.Statement.Select
import GraphQuery.Statement.Update

/-!
# Statements

A statement of any kind can be compiled, alone or in a transaction with others, and used as a
sub-query of another statement.
-/

namespace GraphQuery

inductive Statement
  | select (content : Select)
  | create (content : Create)
  | update (content : Update)
  | delete (content : Delete)
  | insert (content : Insert)
  | relate (content : Relate)

namespace Statement

def scope : Statement → ScopeId
  | select s => s.scope
  | create c => c.scope
  | update u => u.scope
  | delete d => d.scope
  | insert i => i.scope
  | relate r => r.scope

/-- The record that the clauses of the statement are about. -/
def record : Statement → Expr
  | select s => s.record
  | create c => c.record
  | update u => u.record
  | delete d => d.record
  | insert i => i.record
  | relate r => r.record

/-- The keyword that the statement begins with. -/
def keyword : Statement → String
  | select _ => "SELECT"
  | create _ => "CREATE"
  | update u => u.keyword
  | delete _ => "DELETE"
  | insert _ => "INSERT"
  | relate _ => "RELATE"

/-- The shape of the result. -/
def output (db : Database) : Statement → Descriptor
  | select s => s.output db
  | create c => c.output
  | update u => u.output
  | delete d => d.output
  | insert i => i.output
  | relate r => r.output

/-- Results are parsed against `output` when the statement is executed. -/
def checksOutput : Statement → Bool
  | select _ => true
  | create c => c.trailer.checksOutput
  | update u => u.trailer.checksOutput
  | delete d => d.trailer.checksOutput
  | insert i => i.trailer.checksOutput
  | relate r => r.trailer.checksOutput

def layout : Statement → Layout
  | select s => s.layout
  | create c => c.layout
  | update u => u.layout
  | delete d => d.layout
  | insert i => i.layout
  | relate r => r.layout

/-- Write the statement at a place. -/
def pieces (scopes : Scopes) (s : Statement) : List Piece :=
  s.layout.pieces (scopes.enter s.scope)

/-- Render the clauses of the statement. -/
def renderStatement : Statement → Rendering String
  | select s => s.renderStatement
  | create c => c.renderStatement
  | update u => u.renderStatement
  | delete d => d.renderStatement
  | insert i => i.renderStatement
  | relate r => r.renderStatement

/-- Render the statement inside its scope. -/
def render (s : Statement) : Rendering String := DisplayContext.within s.scope s.renderStatement

/-- The text of the statement and the values behind its placeholders. -/
def compile (s : Statement) : Compiled := s.render.compiled

/-- The statement as a sub-query. -/
def toExpr (db : Database) (s : Statement) : Expr :=
  ⟨s.scope, s.output db, .query s.scope s.layout⟩

/-- Render one more statement of a transaction behind the text of those before it. -/
def renderLine (text : String) (s : Statement) : Rendering String := do
  return text ++ (← s.render) ++ ";\n"

/-- Render statements as one transaction, all on the same context. -/
def renderBatch (statements : List Statement) : Rendering String := do
  let text ← statements.foldlM renderLine "BEGIN TRANSACTION;\n"
  return text ++ "COMMIT TRANSACTION;"

/-- Several statements as one transaction, with one list of values. -/
def compileBatch (statements : List Statement) : Compiled := (renderBatch statements).compiled

end Statement

end GraphQuery
