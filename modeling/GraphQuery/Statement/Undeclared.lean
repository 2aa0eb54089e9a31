import GraphQuery.Descriptor.Declared
import GraphQuery.Statement.Insert

/-!
# Paths that are left to the server

A raw value for a path is `Unchecked` when no call that takes it asks what shape it has: neither an
assignment, nor a row of an insertion, nor an assignment to a record that is there already.
-/

namespace GraphQuery

/-- No raw value for the path is refused, whichever call it is given to. -/
structure Unchecked (row : Descriptor) (path : String) : Prop where
  assignment : ∀ v, Document.checkAssignment row path v = .ok ()
  /-- An assignment may still be refused where its clause may not be used. -/
  set : ∀ (slot : PayloadSlot) scope v e,
    slot.assign row scope path .assign (.value v) ≠ .error (.type e)
  /-- A row of an insertion is checked for its other fields. -/
  values : ∀ names v vs, Insert.checkRow row (path :: names) (v :: vs) = Insert.checkRow row names vs
  onDuplicate : ∀ i : Insert, i.input = row → ∀ v, (i.onDuplicateSet path (.value v)).isOk = true

end GraphQuery
