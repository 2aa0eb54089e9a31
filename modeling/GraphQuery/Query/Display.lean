import GraphQuery.Fields
import GraphQuery.Query.Piece

/-!
# The display context

Query text is rendered on a `DisplayContext`: the variables that have been bound, a counter for their
names, and the scopes of the place that is being written. A raw value never goes into the text;
`DisplayContext.bind` makes it a variable and writes its placeholder. A statement inside another one
is rendered on the same context, under its own scope.
-/

namespace GraphQuery

/-- What rendering reads and changes. -/
structure DisplayContext extends Scopes where
  /-- The variables in the order in which they were bound. -/
  vars : List (String × Json)
  /-- The number of the next variable. -/
  counter : Nat

/-- Rendering runs on a display context and leaves it to what is rendered next. -/
abbrev Rendering := StateM DisplayContext

namespace DisplayContext

/-- Nothing is bound, and no statement is being written. -/
def new : DisplayContext := { Scopes.outermost with vars := [], counter := 0 }

/-- Bind a value to the next variable, and write its placeholder. -/
def bind (v : Json) : Rendering String := do
  let name := variableName (← get).counter
  modify fun d => { d with counter := d.counter + 1 }
  modify fun d => { d with vars := Fields.insert d.vars name v }
  return "$" ++ name

/-- Render inside the statement of a scope: the scope that was current is the parent meanwhile. -/
def within {α : Type} (scope : ScopeId) (body : Rendering α) : Rendering α := do
  let saved := (← get).toScopes
  modify fun d => { d with toScopes := saved.enter scope }
  let out ← body
  modify fun d => { d with toScopes := saved }
  return out

/-- How the record of a scope is written here. -/
def record (scope : ScopeId) : Rendering String := do
  return (← get).toScopes.record scope

end DisplayContext

/-- What is rendered on a new context: the text, and the variables that it has bound. -/
def Rendering.compiled (r : Rendering String) : Compiled :=
  let (text, d) := r.run .new
  ⟨text, d.vars⟩

end GraphQuery
