import GraphQuery.Proofs.Query.Document
import GraphQuery.Proofs.Query.PayloadCall

/-!
# Pending payloads are valid

A call checks its own argument, and what is there was checked before, so what a push puts together is
valid in every mode.
-/

namespace GraphQuery

open Outcome

namespace Payload

variable {input : Descriptor} {scope : ScopeId} {p q r : Payload}

theorem valid_of_payload {fields : List (String × Descriptor)} {c : PayloadCall}
    (distinct : (Descriptor.object fields).Distinct)
    (written : c.payload (.object fields) scope = .ok p) : p.Valid (.object fields) := by
  cases c with
  | assign field op value =>
      obtain ⟨_, _, rfl⟩ := map_eq_ok.mp written
      trivial
  | content document =>
      obtain ⟨parsed, parses, rfl⟩ := map_eq_ok.mp written
      exact Document.whole_of_parse distinct parses
  | merge document =>
      obtain ⟨_, checked, rfl⟩ := map_eq_ok.mp written
      exact checked
  | patch operations =>
      cases written
      trivial
  | replace document =>
      obtain ⟨parsed, parses, rfl⟩ := map_eq_ok.mp written
      exact Document.whole_of_parse distinct parses

theorem Valid.absorb (distinct : input.Distinct) (valid : p.Valid input) (next : q.Valid input)
    (absorbed : p.absorb q = .ok r) : r.Valid input := by
  cases p <;> cases q <;> cases absorbed
  case set.set => trivial
  case content.content => exact Document.Whole.merge distinct valid next
  case merge.merge => exact Document.checkPartial_merge valid next
  case patch.patch => trivial
  case replace.replace => exact Document.Whole.merge distinct valid next

end Payload

namespace PayloadSlot.Pending

variable {input : Descriptor} {scope : ScopeId} {done : List PayloadCall} {slot slot' : PayloadSlot}
  {c : PayloadCall}

theorem start (input : Descriptor) (scope : ScopeId) : Pending input scope [] none where
  toHolds := .start input scope
  valid _ there := nomatch there
  checked _ _ member := absurd member List.not_mem_nil

theorem next {fields : List (String × Descriptor)} (distinct : (Descriptor.object fields).Distinct)
    (pending : Pending (.object fields) scope done slot)
    (called : slot.call (.object fields) scope c = .ok slot') :
    Pending (.object fields) scope (done ++ [c]) slot' := by
  obtain ⟨_, p, written, pushed⟩ := push_of_call called
  have valid := Payload.valid_of_payload distinct written
  refine { toHolds := pending.toHolds.next called, valid := ?_, checked := ?_ }
  · cases slot with
    | none =>
        cases pushed
        rintro _ ⟨⟩
        exact valid
    | some existing =>
        obtain ⟨q, absorbed, rfl⟩ := map_eq_ok.mp pushed
        rintro _ ⟨⟩
        exact (pending.valid existing rfl).absorb distinct valid absorbed
  · intro field v member
    rcases List.mem_append.mp member with before | now
    · exact pending.checked field v before
    · cases List.mem_singleton.mp now
      obtain ⟨_, checked, _⟩ := map_eq_ok.mp written
      exact checked

end PayloadSlot.Pending

end GraphQuery
