import GraphQuery.Statement.Basic

/-!
# The raw values of a statement

The values that were given to a statement, in the order of its clauses. A record counts as its table
and its id; a document, a patch and a list of documents count as one value.
-/

namespace GraphQuery

/-- The values of an application, given those of its receiver and of each argument. An operator in
front of its operand has no arguments; a function whose separator comes first has its first argument
in front of the receiver. -/
def Form.values (form : Form) (receiver : List Json) (arguments : List (List Json)) : List Json :=
  match form with
  | .before _ => receiver
  | .callSeparated _ => (arguments.take 1).flatten ++ receiver ++ (arguments.drop 1).flatten
  | _ => receiver ++ arguments.flatten

namespace Term

mutual

/-- The values in a term, from left to right. -/
def values : Term → List Json
  | record _ => []
  | input => []
  | fieldPath _ => []
  | value v => [v]
  | get base _ => values base
  | apply op receiver arguments => op.form.values (values receiver) (valuesEach arguments)
  | object entries => (valuesEntries entries).flatten
  | array items => (valuesEach items).flatten
  | query _ layout => valuesLayout layout

def valuesEach : List Term → List (List Json)
  | [] => []
  | t :: rest => values t :: valuesEach rest

def valuesEntries : List (String × Term) → List (List Json)
  | [] => []
  | (_, t) :: rest => values t :: valuesEntries rest

def valuesPart : Part → List Json
  | .text _ => []
  | .value v => [v]
  | .term t => values t
  | .operand t => values t

def valuesLayout : List Part → List Json
  | [] => []
  | part :: rest => valuesPart part ++ valuesLayout rest

end

end Term

def Expr.values (e : Expr) : List Json := e.term.values

namespace Shape

mutual

/-- The values of a shape, from left to right: its raw values, and those of its expressions. -/
def values : Shape → List Json
  | expr e => e.values
  | value v => [v]
  | object entries => valuesEntries entries
  | array items => valuesItems items

def valuesEntries : List (String × Shape) → List Json
  | [] => []
  | (_, s) :: rest => values s ++ valuesEntries rest

def valuesItems : List Shape → List Json
  | [] => []
  | s :: rest => values s ++ valuesItems rest

end

end Shape

def Target.values : Target → List Json
  | table _ => []
  | record ref => [.string ref.table, ref.id]
  | expr e => e.values

/-- The values of a condition, if there is one. -/
def Expr.valuesOf (condition : Option Expr) : List Json := condition.elim [] values

def Assignment.valuesOf (assignments : List Assignment) : List Json :=
  assignments.flatMap fun a => a.value.values

def Payload.values : Payload → List Json
  | set assignments => Assignment.valuesOf assignments
  | content document => [document]
  | merge document => [document]
  | patch operations => [PatchOp.encodeAll operations]
  | replace document => [document]

def PayloadSlot.values (slot : PayloadSlot) : List Json := slot.elim [] Payload.values

def ReturnMode.values : ReturnMode → List Json
  | value e => e.values
  | _ => []

def Trailer.values (t : Trailer) : List Json := t.mode.elim [] ReturnMode.values

def Projection.values : Projection → List Json
  | value e => e.values
  | _ => []

/-- Rows line by line; documents as one value, also when there are none. -/
def InsertData.values : InsertData → List Json
  | empty => [.array []]
  | rows _ lines => lines.flatten
  | documents [one] => [one]
  | documents many => [.array many]

namespace Statement

/-- The values of a statement, clause by clause. -/
def values : Statement → List Json
  | select s =>
    s.projection.values ++ s.target.values ++ Expr.valuesOf s.condition ++
      s.order.flatMap (fun o => o.criterion.values) ++ (s.limit.map fun n => Json.int n).toList ++
      (s.start.map fun n => Json.int n).toList
  | create c => c.target.values ++ c.payload.values ++ c.trailer.values
  | update u => u.target.values ++ u.payload.values ++ Expr.valuesOf u.condition ++ u.trailer.values
  | delete d => d.target.values ++ Expr.valuesOf d.condition ++ d.trailer.values
  | insert i => i.data.values ++ Assignment.valuesOf i.onDuplicate ++ i.trailer.values
  | relate r => r.source.values ++ r.target.values ++ r.payload.values ++ r.trailer.values

end Statement

end GraphQuery
