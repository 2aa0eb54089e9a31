import GraphQuery.Descriptor.OfValue
import GraphQuery.Query.Error
import GraphQuery.Query.Node
import GraphQuery.Schema.Database

/-!
# Expressions

An `Expr` is a term together with the shape of its values and the scope of the statement that it
belongs to. Raw values are lifted into the scope of the expression that they meet. Projections follow
links to declared tables, and operations are found by the shape of the receiver.
-/

namespace GraphQuery

/-- A term, the shape of its values, and the scope it belongs to. -/
structure Expr where
  scope : ScopeId
  type : Descriptor
  term : Term

/-- An expression, or a raw value to be lifted. -/
inductive Operand
  | expr (content : Expr)
  | value (content : Json)

namespace Expr

/-- A raw value as an expression. -/
def ofValue (scope : ScopeId) (v : Json) : Expr := ⟨scope, .ofValue v, .value v⟩

/-- The record of a statement whose rows have the given shape. -/
def ofRecord (scope : ScopeId) (row : Descriptor) : Expr := ⟨scope, row, .record scope⟩

end Expr

/-- Expressions as they are; raw values lifted into a scope. -/
def Operand.lift (scope : ScopeId) : Operand → Expr
  | expr e => e
  | value v => .ofValue scope v

namespace Expr

/-- A raw value or another expression, as an expression beside this one. -/
def lift (e : Expr) (operand : Operand) : Expr := operand.lift e.scope

/-- Project into a field or an item. A link is followed into the row it leads to. -/
def get (db : Database) (e : Expr) (key : Key) : Expr :=
  ⟨e.scope, (db.resolve e.type).get key, .get e.term key⟩

/-- Project into the field `id`. -/
def id (db : Database) (e : Expr) : Expr := e.get db (.field "id")

/-- Project into the item of a position. -/
def at' (db : Database) (e : Expr) (position : Nat) : Expr := e.get db (.index position)

/-- Apply an operation, whatever it is usually applied to. -/
def apply (e : Expr) (op : Operation) (arguments : List Operand) : Expr :=
  ⟨e.scope, op.output e.type, .apply op e.term (arguments.map fun a => (e.lift a).term)⟩

/-- The names of the operations that `call` accepts. -/
def methodNames (e : Expr) : List String := e.type.methodNames

/-- Apply the operation of a name, which the receiver must have and the arguments must fit. -/
def call (e : Expr) (method : String) (arguments : List Operand) : Except UsageError Expr :=
  match e.type.method? method with
  | none => .error (.unknownMethod method e.type.present.tag)
  | some op =>
    if op.arity.accepts arguments.length then .ok (e.apply op arguments)
    else .error (.methodArity method op.arity.render arguments.length)

/-- Conjunction. -/
def and (e other : Expr) : Expr := e.apply .and [.expr other]

/-- The same term under another shape. -/
def cast (e : Expr) (type : Descriptor) : Expr := { e with type := type }

def render (e : Expr) : Rendering String := e.term.node.render

/-- The expression on its own, written inside its scope. -/
def compile (e : Expr) : Compiled := (DisplayContext.within e.scope e.render).compiled

end Expr

end GraphQuery
