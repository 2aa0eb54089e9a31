import GraphQuery.Json.Source
import GraphQuery.Proofs.Outcome

/-!
# Where faults are in a source

A container is at fault when a part of it is or when it does not end as it should; a value that was parsed
before is not.
-/

namespace GraphQuery.Source

open Outcome

/-- There is a fault in the source. -/
def Faulty (s : Source) : Prop := s.toJson.isOk = false

variable {items : List Source} {entries : List (SourceEntry Source)} {close : Option Fault}
  {ending : ObjectEnd}

theorem isOk_toItems (items : List Source) (position : Nat) :
    (toItems position items).isOk = items.all fun s => s.toJson.isOk := by
  induction items generalizing position with
  | nil => rfl
  | cons s items ih =>
      rw [toItems, List.all_cons]
      cases s.toJson with
      | error e => rfl
      | ok v =>
          dsimp only
          rw [isOk_map, ih]
          rfl

theorem isOk_toFields (before : List (String × Json)) (entries : List (SourceEntry Source)) :
    (toFields before entries).isOk = entries.all fun entry => entry.value.toJson.isOk := by
  induction entries generalizing before with
  | nil => rfl
  | cons entry entries ih =>
      rw [toFields, List.all_cons]
      cases entry.value.toJson with
      | error e => rfl
      | ok v =>
          dsimp only
          rw [ih]
          rfl

theorem faulty_array_iff :
    (array items close).Faulty ↔ (∃ s ∈ items, s.Faulty) ∨ close ≠ none := by
  have whole : (array items close).toJson.isOk = ((toItems 0 items).isOk && close.isNone) := by
    rw [toJson]
    cases toItems 0 items with
    | error e => rfl
    | ok values => cases close <;> rfl
  rw [Faulty, whole, isOk_toItems, Bool.and_eq_false_iff, List.all_eq_false, Option.isNone_eq_false_iff,
    Option.isSome_iff_ne_none]
  simp only [Faulty, Bool.not_eq_true]

theorem faulty_object_iff :
    (object entries ending).Faulty ↔ (∃ entry ∈ entries, entry.value.Faulty) ∨ ending ≠ .closed := by
  have whole : (object entries ending).toJson.isOk = ((toFields [] entries).isOk && (ending == .closed)) := by
    rw [toJson]
    cases toFields [] entries with
    | error e => rfl
    | ok values => cases ending <;> rfl
  rw [Faulty, whole, isOk_toFields, Bool.and_eq_false_iff, List.all_eq_false, beq_eq_false_iff_ne]
  simp only [Faulty, Bool.not_eq_true]

mutual

theorem not_faulty_ofJson (v : Json) : ¬ (ofJson v).Faulty := by
  cases v with
  | array items =>
      rw [ofJson, faulty_array_iff]
      rintro (⟨s, member, bad⟩ | unclosed)
      · exact not_faulty_ofItems items s member bad
      · exact unclosed rfl
  | object fields =>
      rw [ofJson, faulty_object_iff]
      rintro (⟨entry, member, bad⟩ | unclosed)
      · exact not_faulty_ofFields fields entry member bad
      · exact unclosed rfl
  | _ => exact nofun
termination_by structural v

theorem not_faulty_ofItems (items : List Json) : ∀ s ∈ ofItems items, ¬ s.Faulty := by
  cases items with
  | nil => exact nofun
  | cons v rest => exact List.forall_mem_cons.mpr ⟨not_faulty_ofJson v, not_faulty_ofItems rest⟩
termination_by structural items

theorem not_faulty_ofFields (fields : List (String × Json)) :
    ∀ entry ∈ ofFields fields, ¬ entry.value.Faulty := by
  match fields with
  | [] => exact nofun
  | (key, v) :: rest => exact List.forall_mem_cons.mpr ⟨not_faulty_ofJson v, not_faulty_ofFields rest⟩
termination_by structural fields

end

end GraphQuery.Source
