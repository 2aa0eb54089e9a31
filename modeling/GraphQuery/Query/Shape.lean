import GraphQuery.Query.Expr

/-!
# Shapes

A `Shape` is a tree of objects and arrays over expressions and raw values. It is lowered to one
expression, a literal built of the expressions at its leaves.
-/

namespace GraphQuery

/-- What a statement returns, put together from expressions and raw values. -/
inductive Shape
  | expr (content : Expr)
  | value (content : Json)
  | object (entries : List (String × Shape))
  | array (items : List Shape)

namespace Shape

/-- An object literal of expressions. -/
def objectExpr (scope : ScopeId) (entries : List (String × Expr)) : Expr :=
  ⟨scope, .object (entries.map fun (key, e) => (key, e.type)),
    .object (entries.map fun (key, e) => (key, e.term))⟩

/-- An array literal of expressions. -/
def arrayExpr (scope : ScopeId) (items : List Expr) : Expr :=
  ⟨scope, .tuple (items.map Expr.type), .array (items.map Expr.term)⟩

mutual

/-- The expression that a shape stands for in a scope. -/
def lower (scope : ScopeId) : Shape → Expr
  | expr e => e
  | value v => .ofValue scope v
  | object entries => objectExpr scope (lowerEntries scope entries)
  | array items => arrayExpr scope (lowerItems scope items)

def lowerEntries (scope : ScopeId) : List (String × Shape) → List (String × Expr)
  | [] => []
  | (key, s) :: rest => (key, lower scope s) :: lowerEntries scope rest

def lowerItems (scope : ScopeId) : List Shape → List Expr
  | [] => []
  | s :: rest => lower scope s :: lowerItems scope rest

end

end Shape

end GraphQuery
