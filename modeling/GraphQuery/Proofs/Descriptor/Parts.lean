import GraphQuery.Proofs.Descriptor.FirstMatch
import Mathlib.Data.List.Forall2

/-!
# Parsing part by part

The fields of an object and the items of an array are parsed on their own, and what comes out is put together
of what comes out of them.
-/

namespace GraphQuery.Descriptor

open Outcome

variable {t : Descriptor}

theorem parseSlot_some {v w : Json} : t.parseSlot (some v) = .ok (some w) ↔ t.parse v = .ok w := by
  rw [parseSlot]
  cases t.parse v <;> simp [Except.map]

/-- Fields are parsed one after the other; an absent one leaves nothing. -/
theorem parseFields_cons_eq_ok {name : String} {rest : List (String × Descriptor)}
    {entries kept : List (String × Json)} :
    parseFields ((name, t) :: rest) entries = .ok kept ↔
      ∃ slot others, t.parseSlot (entries.lookup name) = .ok slot ∧
        parseFields rest entries = .ok others ∧ kept = (slot.map (name, ·)).toList ++ others := by
  rw [parseFields_cons, bind_eq_ok]
  simp only [mapError_eq_ok, map_eq_ok]
  constructor
  · rintro ⟨slot, taken, others, done, rfl⟩
    exact ⟨slot, others, taken, done, rfl⟩
  · rintro ⟨slot, others, taken, done, rfl⟩
    exact ⟨slot, taken, others, done, rfl⟩

theorem parse_object_eq_ok {fields : List (String × Descriptor)} {entries : List (String × Json)}
    {w : Json} : (object fields).parse (.object entries) = .ok w ↔
      ∃ kept, parseFields fields entries = .ok kept ∧ .object kept = w := by
  rw [parse_object, map_eq_ok]

/-- A list is parsed item by item. -/
theorem parse_list_of_forall₂ {xs ys : List Json} (each : List.Forall₂ (fun x y => t.parse x = .ok y) xs ys) :
    (list t).parse (.array xs) = .ok (.array ys) := by
  have done (i : Nat) : traverseFrom (fun i x => (t.parse x).mapError (TypeError.under (.item i))) i xs =
      .ok ys := by
    induction each generalizing i with
    | nil => rfl
    | cons parsed _ ih =>
        rw [traverseFrom_cons, parsed, ih]
        rfl
  rw [parse_list, done]
  rfl

/-- In front of null a shape parses what it accepts as it does alone. -/
theorem parse_unionOf_null {v w : Json} (parsed : t.parse v = .ok w) :
    (unionOf [t, null]).parse v = .ok w := by
  have first : ((unionOf [t, null]).parse v).toOption = some w := by
    rw [toOption_parse_unionOf, parseFirst_cons, parsed]
    rfl
  cases here : (unionOf [t, null]).parse v with
  | error e =>
      rw [here] at first
      cases first
  | ok w' =>
      rw [here] at first
      cases first
      rfl

end GraphQuery.Descriptor
