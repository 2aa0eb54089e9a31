import GraphQuery.Proofs.Construction.Related
import GraphQuery.Proofs.Query.PayloadCall

/-!
# Payloads that were accepted

A call on a payload slot that succeeds ends in one push: of an assignment, of a document that was
parsed, or of values as they are. A push keeps related slots related, so two runs that push payloads
of one mode have payloads of one mode.
-/

namespace GraphQuery

open Outcome

namespace PayloadSlot

variable {slot result : PayloadSlot} {input : Descriptor}

theorem push_of_assign {scope : ScopeId} {field : String} {op : AssignOp} {value : Operand}
    (assigned : slot.assign input scope field op value = .ok result) :
    slot.push (.set [⟨field, op, value.lift scope⟩]) = .ok result := by
  obtain ⟨_, _, written, pushed⟩ := push_of_call (c := .assign field op value) assigned
  obtain ⟨_, _, rfl⟩ := map_eq_ok.mp written
  exact pushed

theorem push_of_content {document : Json}
    (written : slot.content input document = .ok result) :
    ∃ parsed, slot.push (.content parsed) = .ok result := by
  unfold PayloadSlot.content at written
  obtain ⟨_, _, rest⟩ := bind_eq_ok.mp written
  obtain ⟨parsed, _, last⟩ := bind_eq_ok.mp rest
  exact ⟨parsed, mapError_eq_ok.mp last⟩

theorem push_of_merge {document : Json} (merged : slot.merge input document = .ok result) :
    slot.push (.merge document) = .ok result := by
  unfold PayloadSlot.merge at merged
  obtain ⟨_, _, rest⟩ := bind_eq_ok.mp merged
  obtain ⟨_, _, last⟩ := bind_eq_ok.mp rest
  exact mapError_eq_ok.mp last

theorem push_of_replace {document : Json}
    (replaced : slot.replace input document = .ok result) :
    ∃ parsed, slot.push (.replace parsed) = .ok result := by
  unfold PayloadSlot.replace at replaced
  obtain ⟨_, _, rest⟩ := bind_eq_ok.mp replaced
  obtain ⟨parsed, _, last⟩ := bind_eq_ok.mp rest
  exact ⟨parsed, mapError_eq_ok.mp last⟩

theorem push_of_patch {operations : List PatchOp}
    (patched : slot.patch operations = .ok result) :
    slot.push (.patch operations) = .ok result := mapError_eq_ok.mp patched

end PayloadSlot

section Related

variable {related : Expr → Expr → Prop}

/-- Payloads that absorb others of their mode stay related; a payload of another mode is refused. -/
theorem Payload.Related.absorb {p q p' q' r s : Payload}
    (alike : Payload.Related related p q) (next : Payload.Related related p' q')
    (left : p.absorb p' = .ok r) (right : q.absorb q' = .ok s) :
    Payload.Related related r s := by
  cases alike with
  | set xs =>
      cases next with
      | set ys =>
          cases left
          cases right
          exact .set (List.rel_append xs ys)
      | _ => cases left
  | content v w =>
      cases next with
      | content v' w' =>
          cases left
          cases right
          exact .content _ _
      | _ => cases left
  | merge v w =>
      cases next with
      | merge v' w' =>
          cases left
          cases right
          exact .merge _ _
      | _ => cases left
  | patch ps qs =>
      cases next with
      | patch ps' qs' =>
          cases left
          cases right
          exact .patch _ _
      | _ => cases left
  | replace v w =>
      cases next with
      | replace v' w' =>
          cases left
          cases right
          exact .replace _ _
      | _ => cases left

theorem PayloadSlot.related_push {slot slot' r s : PayloadSlot} {p q : Payload}
    (alike : Option.Rel (Payload.Related related) slot slot')
    (next : Payload.Related related p q)
    (left : slot.push p = .ok r) (right : slot'.push q = .ok s) :
    Option.Rel (Payload.Related related) r s := by
  cases alike with
  | none =>
      cases left
      cases right
      exact .some next
  | some existing =>
      obtain ⟨_, absorbed, rfl⟩ := map_eq_ok.mp left
      obtain ⟨_, absorbed', rfl⟩ := map_eq_ok.mp right
      exact .some (existing.absorb next absorbed absorbed')

end Related

end GraphQuery
