import GraphQuery.Query.Document
import GraphQuery.Query.Expr
import GraphQuery.Query.Layout
import GraphQuery.Query.Patch

/-!
# Payloads

What a statement writes to its records: assignments, a document in one of three modes, or a patch. A
statement has one mode at most; writing more in the same mode adds to what is there.
-/

namespace GraphQuery

/-- How a field is assigned. -/
inductive AssignOp
  | assign
  | add
  | sub
  deriving DecidableEq, Repr

def AssignOp.token : AssignOp → String
  | assign => "="
  | add => "+="
  | sub => "-="

/-- An assignment to a dotted field path. -/
structure Assignment where
  field : String
  op : AssignOp
  value : Expr

namespace Assignment

def layout (a : Assignment) : Layout :=
  [.text (Name.idiom a.field ++ " " ++ a.op.token ++ " "), .term a.value.term]

/-- Assignments, separated by commas. -/
def layouts (as : List Assignment) : Layout := Layout.separated ", " (as.map layout)

def render (a : Assignment) : Rendering String := do
  return Name.idiom a.field ++ " " ++ a.op.token ++ " " ++ (← a.value.render)

end Assignment

/-- What a statement writes. -/
inductive Payload
  | set (assignments : List Assignment)
  /-- A whole document. -/
  | content (document : Json)
  /-- A partial document that is merged into the record. -/
  | merge (document : Json)
  | patch (operations : List PatchOp)
  /-- A whole document in place of the record, which keeps its id. -/
  | replace (document : Json)

namespace Payload

/-- The clause that a payload comes from. -/
def clause : Payload → Clause
  | set _ => .set
  | content _ => .content
  | merge _ => .merge
  | patch _ => .patch
  | replace _ => .replace

/-- Add a payload of the same mode. -/
def absorb : Payload → Payload → Except UsageError Payload
  | set xs, set ys => .ok (set (xs ++ ys))
  | patch xs, patch ys => .ok (patch (xs ++ ys))
  | content a, content b => .ok (content (Document.merge a b))
  | merge a, merge b => .ok (merge (Document.merge a b))
  | replace a, replace b => .ok (replace (Document.merge a b))
  | existing, next => .error (.conflict next.clause existing.clause)

def layout : Payload → Layout
  | set assignments => .text "SET " :: Assignment.layouts assignments
  | content v => [.text "CONTENT ", .value v]
  | merge v => [.text "MERGE ", .value v]
  | patch operations => [.text "PATCH ", .value (PatchOp.encodeAll operations)]
  | replace v => [.text "REPLACE ", .value v]

/-- Render a payload. A document is one value, and so is a patch. -/
def render : Payload → Rendering String
  | set assignments => do
    let texts ← assignments.mapM Assignment.render
    return "SET " ++ ", ".intercalate texts
  | content v => do return "CONTENT " ++ (← DisplayContext.bind v)
  | merge v => do return "MERGE " ++ (← DisplayContext.bind v)
  | patch operations => do
    return "PATCH " ++ (← DisplayContext.bind (PatchOp.encodeAll operations))
  | replace v => do return "REPLACE " ++ (← DisplayContext.bind v)

end Payload

/-- The payload of a statement, if it has one. -/
abbrev PayloadSlot := Option Payload

namespace PayloadSlot

/-- Add a payload, which must be of the mode that is there. -/
def push (slot : PayloadSlot) (next : Payload) : Except UsageError PayloadSlot :=
  match slot with
  | some existing => (existing.absorb next).map some
  | none => .ok (some next)

/-- The clause may be used: no payload of another mode is there. -/
def accepts (slot : PayloadSlot) (clause : Clause) : Except UsageError Unit :=
  match slot with
  | some existing =>
    if existing.clause = clause then .ok () else .error (.conflict clause existing.clause)
  | none => .ok ()

/-- Lift a usage error. -/
def usage {α : Type} (r : Except UsageError α) : Except QueryError α := r.mapError .usage

/-- Lift a type error. -/
def typed {α : Type} (r : Except TypeError α) : Except QueryError α := r.mapError .type

/-- Assign a field. A raw value that is assigned as it is must have the field's shape. -/
def assign (slot : PayloadSlot) (input : Descriptor) (scope : ScopeId) (field : String)
    (op : AssignOp) (value : Operand) : Except QueryError PayloadSlot := do
  usage (slot.accepts .set)
  match op, value with
  | .assign, .value v => typed (Document.checkAssignment input field v)
  | _, _ => pure ()
  usage (slot.push (.set [⟨field, op, value.lift scope⟩]))

/-- Write a whole document; keys that are not declared are dropped. -/
def content (slot : PayloadSlot) (input : Descriptor) (document : Json) :
    Except QueryError PayloadSlot := do
  usage (slot.accepts .content)
  let document ← typed (input.parse document)
  usage (slot.push (.content document))

/-- Merge a partial document into the record. -/
def merge (slot : PayloadSlot) (input : Descriptor) (document : Json) :
    Except QueryError PayloadSlot := do
  usage (slot.accepts .merge)
  typed (Document.checkPartial input document)
  usage (slot.push (.merge document))

/-- Apply a patch. -/
def patch (slot : PayloadSlot) (operations : List PatchOp) : Except QueryError PayloadSlot :=
  usage (slot.push (.patch operations))

/-- Write a whole document in place of the record. -/
def replace (slot : PayloadSlot) (input : Descriptor) (document : Json) :
    Except QueryError PayloadSlot := do
  usage (slot.accepts .replace)
  let document ← typed (input.parse document)
  usage (slot.push (.replace document))

/-- The clause of the payload behind a space; nothing without one. -/
def layout : PayloadSlot → Layout
  | some payload => .text " " :: payload.layout
  | none => []

def render : PayloadSlot → Rendering String
  | some payload => do return " " ++ (← payload.render)
  | none => pure ""

end PayloadSlot

end GraphQuery
