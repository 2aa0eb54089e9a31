import GraphQuery.Proofs.Query.Pending
import GraphQuery.Statement.Pending

/-!
# Pending documents are valid

However many calls are made on a statement, and whichever of them fail, the document that it will
write is one that would be accepted by itself.
-/

namespace GraphQuery

open Outcome

/-- Documents for the rows of a target are objects. -/
theorem Target.object_of_inputType {db : Database} {target : Target} {input : Descriptor}
    (found : target.inputType db = .ok input) : ∃ fields, input = .object fields := by
  unfold inputType at found
  split at found
  · obtain ⟨d, _, rfl⟩ := map_eq_ok.mp found
    exact ⟨_, rfl⟩
  · split at found
    · cases found
    · cases found
      exact ⟨_, rfl⟩
    · cases found
      exact ⟨[], rfl⟩

section Calls

variable {call : Call}

/-- A call on a statement does to the payload what it does to the payload alone. -/
theorem Create.writing_of_call {c c' : Create} (called : c.call call = some (.ok c')) :
    c.writing.step call = .ok c'.writing := by
  cases call <;> simp only [Create.call, Option.some.injEq, reduceCtorEq] at called
  case assign =>
    obtain ⟨payload, written, rfl⟩ := map_eq_ok.mp called
    exact map_eq_ok.mpr ⟨payload, written, rfl⟩
  case content =>
    obtain ⟨payload, written, rfl⟩ := map_eq_ok.mp called
    exact map_eq_ok.mpr ⟨payload, written, rfl⟩
  all_goals
    cases called
    rfl

theorem Update.writing_of_call {u u' : Update} (called : u.call call = some (.ok u')) :
    u.writing.step call = .ok u'.writing := by
  cases call <;> simp only [Update.call, Option.some.injEq, reduceCtorEq] at called
  case assign | content | merge | patch | replace =>
    obtain ⟨payload, written, rfl⟩ := map_eq_ok.mp called
    exact map_eq_ok.mpr ⟨payload, written, rfl⟩
  all_goals
    cases called
    rfl

theorem Relate.writing_of_call {r r' : Relate} (called : r.call call = some (.ok r')) :
    r.writing.step call = .ok r'.writing := by
  cases call <;> simp only [Relate.call, Option.some.injEq, reduceCtorEq] at called
  case assign | content =>
    obtain ⟨payload, written, rfl⟩ := map_eq_ok.mp called
    exact map_eq_ok.mpr ⟨payload, written, rfl⟩
  all_goals
    cases called
    rfl

end Calls

namespace Statement

variable {db : Database} {s s' : Statement} {c : Call} {w : Writing}

theorem writing_of_call (called : s.call c = some (.ok s')) (writes : s.writing? = some w) :
    ∃ w', w.step c = .ok w' ∧ s'.writing? = some w' := by
  cases s with
  | create s =>
      cases writes
      obtain ⟨a, done, rfl⟩ := offered_map_eq_ok.mp called
      exact ⟨a.writing, Create.writing_of_call done, rfl⟩
  | update s =>
      cases writes
      obtain ⟨a, done, rfl⟩ := offered_map_eq_ok.mp called
      exact ⟨a.writing, Update.writing_of_call done, rfl⟩
  | relate s =>
      cases writes
      obtain ⟨a, done, rfl⟩ := offered_map_eq_ok.mp called
      exact ⟨a.writing, Relate.writing_of_call done, rfl⟩
  | _ => cases writes

/-- A statement is opened without a payload, for documents that are objects. -/
theorem OpensWriting.writing (opened : OpensWriting db s) :
    ∃ fields scope, s.writing? = some ⟨.object fields, scope, none⟩ := by
  cases opened with
  | create made =>
      obtain ⟨_, _, rest⟩ := bind_eq_ok.mp made
      obtain ⟨_, found, made⟩ := bind_eq_ok.mp rest
      obtain ⟨fields, rfl⟩ := Target.object_of_inputType found
      cases made
      exact ⟨fields, _, rfl⟩
  | update made =>
      obtain ⟨_, _, rest⟩ := bind_eq_ok.mp made
      obtain ⟨_, found, made⟩ := bind_eq_ok.mp rest
      obtain ⟨fields, rfl⟩ := Target.object_of_inputType found
      cases made
      exact ⟨fields, _, rfl⟩
  | relate made =>
      obtain ⟨decl, _, rest⟩ := bind_eq_ok.mp made
      obtain ⟨_, _, rest⟩ := bind_eq_ok.mp rest
      obtain ⟨_, _, made⟩ := bind_eq_ok.mp rest
      cases made
      exact ⟨_, _, rfl⟩

/-- After calls of any kind, the payload that a statement will write is what the calls that have
succeeded gave, and it is valid as a whole: a document would be accepted by itself, a partial document
as one, and every raw value that was assigned has the shape of its field. -/
theorem pending_payload_valid (opened : OpensWriting db s) (writes : s.writing? = some w)
    (distinct : w.input.Distinct) (calls : List Call) :
    ∃ payload : PayloadSlot,
      (Run.final step s calls).writing? = some { w with payload := payload } ∧
      payload.Pending w.input w.scope ((Run.accepted step s calls).filterMap Call.payload?) := by
  obtain ⟨fields, scope, found⟩ := opened.writing
  cases writes.symm.trans found
  refine Run.final_induction
    (P := fun (done : List Call) (s : Statement) => ∃ payload : PayloadSlot,
      s.writing? = some ⟨.object fields, scope, payload⟩ ∧
        payload.Pending (.object fields) scope (done.filterMap Call.payload?))
    ⟨none, found, .start _ _⟩ ?_ calls
  rintro done s c s' ⟨payload, writes, pending⟩ called
  obtain ⟨w', stepped, writes'⟩ := writing_of_call (Run.offered_eq_ok.mp called) writes
  rw [List.filterMap_append]
  unfold Writing.step at stepped
  split at stepped
  · next other =>
      cases stepped
      simpa [List.filterMap_cons_none other] using ⟨payload, writes', pending⟩
  · next p offered =>
      obtain ⟨payload', written, rfl⟩ := map_eq_ok.mp stepped
      rw [List.filterMap_cons_some offered, List.filterMap_nil]
      exact ⟨payload', writes', pending.next distinct written⟩

end Statement

namespace Notes

def note : Declaration := .table ⟨"note", [("title", .string), ("draft", .option .bool)]⟩

def schema : Database := Database.empty.declare note

/-- Notes are written in two documents that overlap. The second document is refused, for it has no
title, and so is the merge, for there is a payload of another mode. -/
def calls : List Call :=
  [.content (.object [("draft", .bool true), ("title", .string "a")]),
    .content (.object [("draft", .bool false)]), .parallel,
    .content (.object [("pinned", .bool true), ("title", .string "b")]),
    .merge (.object [("title", .string "c")])]

/-- What is pending is neither of the documents. -/
def pending : Json := .object [("title", .string "b"), ("draft", .bool true)]

theorem pending_payload_valid_notes :
    ∃ u : Update, Update.of schema ⟨0⟩ true (.table "note") = .ok u ∧ u.input.Distinct ∧
      (Run.final Statement.step (.update u) calls).writing? =
        some { u.writing with payload := some (.content pending) } ∧
      Document.Whole u.input pending ∧ (u.input.parse pending).isOk = true := by
  refine ⟨_, rfl, by decide, rfl, ?_⟩
  have opened : Update.of schema ⟨0⟩ true (.table "note") = .ok _ := rfl
  obtain ⟨payload, writes, valid⟩ :=
    Statement.pending_payload_valid (.update opened) rfl (by decide) calls
  cases writes
  have whole : Document.Whole _ pending := valid.valid _ rfl
  exact ⟨whole, whole.accepted⟩

end Notes

end GraphQuery
