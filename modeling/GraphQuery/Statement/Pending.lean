import GraphQuery.Query.PayloadCall
import GraphQuery.Statement.Slot

/-!
# Statements that write a payload

Creations, updates, upserts and relations write one payload to the rows that they make or find. To
the payload they are all the same: the shape of documents for the rows, the scope that expressions
are lifted into, and the slot.
-/

namespace GraphQuery

/-- What a statement writes, and the shape that it is checked against. -/
structure Writing where
  input : Descriptor
  scope : ScopeId
  payload : PayloadSlot

/-- The call on the payload slot that a call on a statement makes, if it makes one. -/
def Call.payload? : Call → Option PayloadCall
  | assign field op value => some (.assign field op value)
  | content document => some (.content document)
  | merge document => some (.merge document)
  | patch operations => some (.patch operations)
  | replace document => some (.replace document)
  | _ => none

/-- What a call does to the payload. -/
def Writing.step (w : Writing) (c : Call) : Except QueryError Writing :=
  match c.payload? with
  | none => .ok w
  | some p => (w.payload.call w.input w.scope p).map fun payload => { w with payload := payload }

def Create.writing (c : Create) : Writing := ⟨c.input, c.scope, c.payload⟩

def Update.writing (u : Update) : Writing := ⟨u.input, u.scope, u.payload⟩

def Relate.writing (r : Relate) : Writing := ⟨r.input, r.scope, r.payload⟩

namespace Statement

/-- What the statement writes by a payload; insertions have data of another kind. -/
def writing? : Statement → Option Writing
  | select _ => none
  | create c => some c.writing
  | update u => some u.writing
  | delete _ => none
  | insert _ => none
  | relate r => some r.writing

/-- A statement that writes a payload, as it is opened. -/
inductive OpensWriting (db : Database) : Statement → Prop
  | create {scope : ScopeId} {target : Target} {c : Create} :
      Create.of db scope target = .ok c → OpensWriting db (.create c)
  | update {scope : ScopeId} {upsert : Bool} {target : Target} {u : Update} :
      Update.of db scope upsert target = .ok u → OpensWriting db (.update u)
  | relate {scope : ScopeId} {edge : String} {source target : Target} {r : Relate} :
      Relate.of db scope edge source target = .ok r → OpensWriting db (.relate r)

end Statement

end GraphQuery
