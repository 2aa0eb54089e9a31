import GraphQuery.Descriptor.Restriction
import GraphQuery.Query.PayloadCall

/-!
# Pending payloads

What is known of the payload that calls have put together, each of which has been checked on its own:
the document as a whole would be accepted, and assignments and patches are those of the calls.
-/

namespace GraphQuery

/-- Documents one after the other, the later ones over the earlier. -/
def Document.mergeAll : List Json → Option Json
  | [] => none
  | first :: rest => some (rest.foldl Document.merge first)

/-- A document that may be written as it is. -/
structure Document.Whole (input : Descriptor) (document : Json) : Prop where
  valid : input.validate document = true
  /-- Written by itself it would not be rejected. -/
  accepted : (input.parse document).isOk = true
  /-- It has no keys but declared ones, none of them twice, and neither has what stands under them. -/
  declared : ∃ fields entries, input = .object fields ∧ document = .object entries ∧
    Fields.Distinct entries ∧ ∀ name w, (name, w) ∈ entries →
      ∃ t v, fields.lookup name = some t ∧ Descriptor.Restricted t v w

/-- What is checked of documents, call by call, holds of the payload. -/
def Payload.Valid (input : Descriptor) : Payload → Prop
  | set _ => True
  | content document => Document.Whole input document
  | merge document => Document.checkPartial input document = .ok ()
  | patch _ => True
  | replace document => Document.Whole input document

namespace PayloadSlot

/-- What a slot holds after the calls that have succeeded. -/
structure Holds (input : Descriptor) (scope : ScopeId) (done : List PayloadCall)
    (slot : PayloadSlot) : Prop where
  mode : slot.mode = done.head?.map PayloadCall.clause
  assignments : ∀ p, slot = some p → p.assignments = done.flatMap (·.assignments scope)
  operations : ∀ p, slot = some p → p.operations = done.flatMap (·.operations)
  document : ∀ p, slot = some p →
    p.document? = Document.mergeAll (done.filterMap (·.document? input))

/-- What is known of a slot after the calls that have succeeded. -/
structure Pending (input : Descriptor) (scope : ScopeId) (done : List PayloadCall)
    (slot : PayloadSlot) : Prop extends Holds input scope done slot where
  valid : ∀ p, slot = some p → p.Valid input
  /-- Every raw value that was assigned as it is has the shape of its field. -/
  checked : ∀ field v, .assign field .assign (.value v) ∈ done →
    Document.checkAssignment input field v = .ok ()

end PayloadSlot

end GraphQuery
