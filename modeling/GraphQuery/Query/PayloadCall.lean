import GraphQuery.Query.Payload
import GraphQuery.Run

/-!
# Calls on a payload slot

A `PayloadCall` is a call that writes to the payload of a statement. On a slot as a value it gives a new
slot or fails. It can also be made on a slot in place: then whatever a step has written is there when a
later one fails.
-/

namespace GraphQuery

/-- What can be asked of a payload slot. -/
inductive PayloadCall
  | assign (field : String) (op : AssignOp) (value : Operand)
  | content (document : Json)
  | merge (document : Json)
  | patch (operations : List PatchOp)
  | replace (document : Json)

namespace PayloadCall

/-- The clause that the call adds to. -/
def clause : PayloadCall → Clause
  | assign _ _ _ => .set
  | content _ => .content
  | merge _ => .merge
  | patch _ => .patch
  | replace _ => .replace

/-- The assignments that the call makes. -/
def assignments (scope : ScopeId) : PayloadCall → List Assignment
  | assign field op value => [⟨field, op, value.lift scope⟩]
  | _ => []

/-- The operations of the patch that the call applies. -/
def operations : PayloadCall → List PatchOp
  | patch operations => operations
  | _ => []

/-- The document that the call writes if it passes: a whole document is restricted to what is declared,
a partial one is written as it is. -/
def document? (input : Descriptor) : PayloadCall → Option Json
  | content document => (input.parse document).toOption
  | merge document => some document
  | replace document => (input.parse document).toOption
  | _ => none

/-- A raw value that is assigned as it is must have the field's shape. What is added or taken away, and
what an expression gives, is not known before the statement runs. -/
def checkOperand (input : Descriptor) (field : String) : AssignOp → Operand → Except TypeError Unit
  | .assign, .value v => Document.checkAssignment input field v
  | _, _ => .ok ()

/-- What the call writes if its argument passes the check. -/
def payload (input : Descriptor) (scope : ScopeId) : PayloadCall → Except TypeError Payload
  | assign field op value =>
    (checkOperand input field op value).map fun _ => .set [⟨field, op, value.lift scope⟩]
  | content document => (input.parse document).map .content
  | merge document => (Document.checkPartial input document).map fun _ => .merge document
  | patch operations => .ok (.patch operations)
  | replace document => (input.parse document).map .replace

end PayloadCall

namespace Payload

/-- The assignments of a payload; there are none but in a `SET`. -/
def assignments : Payload → List Assignment
  | set assignments => assignments
  | _ => []

/-- The operations of a payload; there are none but in a `PATCH`. -/
def operations : Payload → List PatchOp
  | patch operations => operations
  | _ => []

/-- The document of a payload, in the modes that have one. -/
def document? : Payload → Option Json
  | content document => some document
  | merge document => some document
  | replace document => some document
  | _ => none

end Payload

namespace PayloadSlot

/-- The clause whose payload is there. -/
def mode (slot : PayloadSlot) : Option Clause := slot.map Payload.clause

/-- No payload of another clause is there. -/
def Admits (slot : PayloadSlot) (clause : Clause) : Prop :=
  ∀ existing, slot.mode = some existing → existing = clause

/-- Make a call. -/
def call (input : Descriptor) (scope : ScopeId) (slot : PayloadSlot) :
    PayloadCall → Except QueryError PayloadSlot
  | .assign field op value => slot.assign input scope field op value
  | .content document => slot.content input document
  | .merge document => slot.merge input document
  | .patch operations => slot.patch operations
  | .replace document => slot.replace input document

end PayloadSlot

/-! ## In place -/

/-- Steps on a payload slot in place, each of which may fail. -/
abbrev Edit := ExceptT QueryError (StateM PayloadSlot)

namespace Edit

/-- A result that does not depend on the slot. -/
def lift {α : Type} : Except QueryError α → Edit α
  | .ok a => pure a
  | .error e => throw e

/-- The clause may be used: no payload of another mode is there. -/
def allow (clause : Clause) : Edit Unit := do
  match ← get with
  | some existing =>
    if existing.clause = clause then pure () else throw (.usage (.conflict clause existing.clause))
  | none => pure ()

/-- Write a payload over none, or behind one of its mode. -/
def push (next : Payload) : Edit Unit := do
  match ← get with
  | some existing =>
    let payload ← lift (PayloadSlot.usage (existing.absorb next))
    set (some payload)
  | none => set (some next)

end Edit

/-- The steps of a call, in their order. A patch does not ask first whether its clause may be used. -/
def PayloadCall.edit (input : Descriptor) (scope : ScopeId) : PayloadCall → Edit Unit
  | .assign field op value => do
    Edit.allow .set
    match op, value with
    | .assign, .value v => Edit.lift (PayloadSlot.typed (Document.checkAssignment input field v))
    | _, _ => pure ()
    Edit.push (.set [⟨field, op, value.lift scope⟩])
  | .content document => do
    Edit.allow .content
    let document ← Edit.lift (PayloadSlot.typed (input.parse document))
    Edit.push (.content document)
  | .merge document => do
    Edit.allow .merge
    Edit.lift (PayloadSlot.typed (Document.checkPartial input document))
    Edit.push (.merge document)
  | .patch operations => Edit.push (.patch operations)
  | .replace document => do
    Edit.allow .replace
    let document ← Edit.lift (PayloadSlot.typed (input.parse document))
    Edit.push (.replace document)

namespace PayloadSlot

/-- Make a call in place: its answer, and what it leaves of the slot. -/
def perform (input : Descriptor) (scope : ScopeId) (slot : PayloadSlot) (c : PayloadCall) :
    Except QueryError Unit × PayloadSlot :=
  (c.edit input scope).run.run slot

/-- Make calls in place, one after the other, whatever they answer. -/
def performAll (input : Descriptor) (scope : ScopeId) (slot : PayloadSlot)
    (calls : List PayloadCall) : PayloadSlot :=
  calls.foldl (fun slot c => (slot.perform input scope c).2) slot

/-- How a slot answers a call, and what a call in place leaves of it. -/
structure Answers (input : Descriptor) (scope : ScopeId) (slot : PayloadSlot) (c : PayloadCall) :
    Prop where
  /-- The clauses that conflict are named whatever the argument is. -/
  conflict : ∀ clause existing,
    slot.call input scope c = .error (.usage (.conflict clause existing)) ↔
      clause = c.clause ∧ slot.mode = some existing ∧ existing ≠ c.clause
  type : ∀ e, slot.call input scope c = .error (.type e) ↔
    slot.Admits c.clause ∧ c.payload input scope = .error e
  succeeds : (slot.call input scope c).isOk = true ↔
    slot.Admits c.clause ∧ (c.payload input scope).isOk = true
  unchanged : ∀ e, slot.call input scope c = .error e → slot.perform input scope c = (.error e, slot)
  stored : ∀ slot', slot.call input scope c = .ok slot' →
    slot.perform input scope c = (.ok (), slot')

end PayloadSlot

end GraphQuery
