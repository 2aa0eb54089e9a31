import GraphQuery.Query.Shape

/-!
# Expressions of one statement

A `Composed` expression is made of the record of one statement and of raw values, by projections,
operations and literals, and no sub-query stands in it. `Term.skeleton` is what text can show of a
term: which operations it applies to which operands, but neither the raw values nor whether a position
is known to be in range; two negations and a test for truth look the same.
-/

namespace GraphQuery

/-- Known to be in range or not, a position is written in the same way. -/
def Key.skeleton : Key → Key
  | present i => index i
  | key => key

namespace Term

mutual

/-- The operations of a term and the places of their operands. -/
def skeleton : Term → Term
  | record _ => .record ⟨0⟩
  | value _ => .value .null
  | get base key => .get (skeleton base) key.skeleton
  | apply op receiver arguments =>
    if op = .truthy then .apply .not (.apply .not (skeleton receiver) []) []
    else .apply op (skeleton receiver) (skeletonEach arguments)
  | object entries => .object (skeletonEntries entries)
  | array items => .array (skeletonEach items)
  | t => t

def skeletonEach : List Term → List Term
  | [] => []
  | t :: rest => skeleton t :: skeletonEach rest

def skeletonEntries : List (String × Term) → List (String × Term)
  | [] => []
  | (key, t) :: rest => (key, skeleton t) :: skeletonEntries rest

end

/-- The term is an operation written in front of its operand. -/
def isPrefixed : Term → Bool
  | apply op _ _ => match op.form with
    | .before _ => true
    | _ => false
  | _ => false

end Term

/-- An expression stands in a shape. -/
inductive Shape.Leaf (e : Expr) : Shape → Prop
  | expr : Leaf e (.expr e)
  | entry {key : String} {s : Shape} {entries : List (String × Shape)} :
    (key, s) ∈ entries → Leaf e s → Leaf e (.object entries)
  | item {s : Shape} {items : List Shape} : s ∈ items → Leaf e s → Leaf e (.array items)

/-- Expressions made of the record of one statement and of raw values, without sub-queries. What is
behind an operation written in front is not projected. -/
inductive Expr.Composed (db : Database) (scope : ScopeId) : Expr → Prop
  | record (row : Descriptor) : Composed db scope (.ofRecord scope row)
  | value (v : Json) : Composed db scope (.ofValue scope v)
  | get {e : Expr} (key : Key) : Composed db scope e → e.term.isPrefixed = false →
    Composed db scope (e.get db key)
  /-- An operation on values of any shape. -/
  | operator {e : Expr} {op : Operation} {arguments : List Operand} :
    op ∈ Operation.universal → op.arity.accepts arguments.length = true → Composed db scope e →
    (∀ a ∈ arguments, Composed db scope (e.lift a)) → Composed db scope (e.apply op arguments)
  | method {e result : Expr} {name : String} {arguments : List Operand} :
    e.call name arguments = .ok result → Composed db scope e →
    (∀ a ∈ arguments, Composed db scope (e.lift a)) → Composed db scope result
  | cast {e : Expr} (type : Descriptor) : Composed db scope e → Composed db scope (e.cast type)
  /-- Objects and arrays. -/
  | literal {shape : Shape} : (∀ e, shape.Leaf e → Composed db scope e) →
    Composed db scope (shape.lower scope)

end GraphQuery
