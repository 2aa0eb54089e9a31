import GraphQuery.Text.Name

/-!
# Scopes

Every statement has a scope of its own. Where a statement is written, its scope is the current one,
and the scope around it is its parent. The record of the current scope is written `$this`, that of
any other scope `$parent`.
-/

namespace GraphQuery

/-- The scope of one statement. -/
structure ScopeId where
  number : Nat
  deriving DecidableEq, Repr

/-- The scope of the place where text is written, and the scope around it. -/
structure Scopes where
  current : Option ScopeId
  parent : Option ScopeId
  deriving DecidableEq, Repr

namespace Scopes

/-- The place outside all statements. -/
def outermost : Scopes := ⟨none, none⟩

/-- A place inside the statement of a scope. -/
def enter (scopes : Scopes) (scope : ScopeId) : Scopes := ⟨some scope, scopes.current⟩

/-- The record of the current scope in query text. -/
def this : String := "$this"

/-- The record of another scope in query text. -/
def outer : String := "$parent"

/-- How the record of a scope is written at a place. -/
def record (scopes : Scopes) (scope : ScopeId) : String :=
  if scopes.current = some scope then this else outer

end Scopes

/-- Write a path segment behind the text of its base; a field of the current record stands without
the record. -/
def joinPath (base segment : String) : String :=
  match base == Scopes.this, segment.toList with
  | true, '.' :: field => String.ofList field
  | _, _ => base ++ segment

end GraphQuery
