import GraphQuery.Descriptor.Basic

/-!
# Operations

An `Operation` is applied to a receiver and to arguments. It says how the application is written, how
many arguments it takes and what shape its result has, which depends on the shape of the receiver
alone.
-/

namespace GraphQuery

/-- How an application is written. -/
inductive Form
  /-- `receiver OP argument` -/
  | between (token : String)
  /-- `OPreceiver` -/
  | before (token : String)
  /-- `path(receiver, arguments…)` -/
  | call (path : String)
  /-- `path(first argument, receiver, other arguments…)`, for functions whose separator comes first. -/
  | callSeparated (path : String)
  deriving DecidableEq, Repr

/-- How many arguments an operation takes. -/
inductive Arity
  | exactly (n : Nat)
  | atLeast (n : Nat)
  | between (least greatest : Nat)
  deriving DecidableEq, Repr

namespace Arity

def accepts : Arity → Nat → Bool
  | exactly k, n => n == k
  | atLeast k, n => decide (k ≤ n)
  | between least greatest, n => decide (least ≤ n) && decide (n ≤ greatest)

def render : Arity → String
  | exactly k => toString k
  | atLeast k => "at least " ++ toString k
  | between least greatest => toString least ++ " to " ++ toString greatest

end Arity

/-- The shape of a result, in terms of the receiver. -/
inductive ResultShape
  | bool
  | number
  | string
  | date
  | strings
  /-- The receiver's own shape, without absence. -/
  | receiver
  /-- An element of the receiver, or absence. -/
  | maybeElement
  /-- A list of elements of the receiver. -/
  | elements
  /-- A list of elements of elements of the receiver. -/
  | innerElements
  /-- The id of a record. -/
  | recordId
  deriving DecidableEq, Repr

namespace Descriptor

/-- The shape of an element of an array, whatever its position. -/
def element (t : Descriptor) : Descriptor :=
  match t.present with
  | list item => item
  | tuple items => unionOf items
  | _ => absent

end Descriptor

/-- The descriptor of a result. -/
def ResultShape.descriptor (result : ResultShape) (receiver : Descriptor) : Descriptor :=
  match result with
  | bool => .bool
  | number => .number
  | string => .string
  | date => .date
  | strings => .list .string
  | .receiver => receiver.present
  | maybeElement => .unionOf [receiver.element, .absent]
  | elements => .list receiver.element
  | innerElements => .list receiver.element.element.present
  | recordId => .unionOf [.string, .number]

/-- An operation on values. -/
structure Operation where
  name : String
  form : Form
  arity : Arity
  result : ResultShape
  deriving DecidableEq, Repr

/-- The descriptor of an application to a receiver of the given shape. -/
def Operation.output (op : Operation) (receiver : Descriptor) : Descriptor :=
  op.result.descriptor receiver

end GraphQuery
