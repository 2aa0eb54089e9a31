import GraphQuery.Json.Basic
import Mathlib.Data.List.Forall2

/-!
# Objects that are dictionaries

No object in a value names a key twice. `Json.Alike` compares such values as dictionaries: the order
of the keys does not matter.
-/

namespace GraphQuery.Json

mutual

/-- No object in the value names a key twice. -/
def distinct : Json → Bool
  | array items => distinctItems items
  | object fields => decide (Fields.names fields).Nodup && distinctFields fields
  | _ => true

def distinctItems : List Json → Bool
  | [] => true
  | v :: rest => distinct v && distinctItems rest

def distinctFields : List (String × Json) → Bool
  | [] => true
  | (_, v) :: rest => distinct v && distinctFields rest

end

theorem distinctFields_iff {fields : List (String × Json)} :
    distinctFields fields = true ↔ ∀ name v, (name, v) ∈ fields → v.distinct = true := by
  induction fields with
  | nil => simp [distinctFields]
  | cons entry rest ih =>
      obtain ⟨key, v⟩ := entry
      rw [distinctFields, Bool.and_eq_true, ih, Fields.forall_mem_cons]

theorem distinct_object {fields : List (String × Json)} :
    (object fields).distinct = true ↔
      Fields.Distinct fields ∧ ∀ name v, (name, v) ∈ fields → v.distinct = true := by
  rw [distinct, Bool.and_eq_true, decide_eq_true_iff, distinctFields_iff, Fields.Distinct]

theorem distinctItems_iff {items : List Json} :
    distinctItems items = true ↔ ∀ v ∈ items, v.distinct = true := by
  induction items with
  | nil => simp [distinctItems]
  | cons v rest ih => rw [distinctItems, Bool.and_eq_true, ih, List.forall_mem_cons]

/-- Two values are the same but for the order of the keys of their objects. -/
inductive Alike : Json → Json → Prop
  | same (v : Json) : Alike v v
  | array {xs ys : List Json} : List.Forall₂ Alike xs ys → Alike (array xs) (array ys)
  | object {xs ys : List (String × Json)} :
      (∀ name, Option.Rel Alike (xs.lookup name) (ys.lookup name)) → Alike (object xs) (object ys)

/-- Objects that are alike have alike values under each key. -/
theorem Alike.lookup {xs ys : List (String × Json)} (alike : Alike (.object xs) (.object ys))
    (name : String) : Option.Rel Alike (xs.lookup name) (ys.lookup name) := by
  cases alike with
  | same =>
      cases xs.lookup name with
      | none => exact .none
      | some v => exact .some (.same v)
  | object each => exact each name

end GraphQuery.Json
