import GraphQuery.Json.Distinct
import GraphQuery.Json.Source
import GraphQuery.Proofs.Fields.Lookup
import GraphQuery.Proofs.Outcome

/-!
# Values that are read name no key twice

Like the fields of a shape, the keys of an object are inserted one after the other. So a value in which no
object names a key twice is read as it is.
-/

namespace GraphQuery

open Outcome

namespace Source

mutual

/-- The induction is on the source; the entries of an object are read behind those before them. -/
theorem distinct_of_toJson (s : Source) {v : Json} (read : s.toJson = .ok v) :
    v.distinct = true := by
  match s with
  | .fault f => cases read
  | .null | .bool _ | .number _ | .string _ =>
      rw [toJson] at read
      cases read
      rfl
  | .array items close =>
      rw [toJson] at read
      split at read
      · cases read
      · next done =>
          split at read
          · cases read
          · cases read
            rw [Json.distinct, Json.distinctItems_iff]
            exact distinct_of_toItems items done
  | .object entries close =>
      rw [toJson] at read
      split at read
      · cases read
      · next done =>
          split at read
          · cases read
          · cases read
            rw [Json.distinct_object]
            exact distinct_of_toFields entries .nil done
termination_by sizeOf s

theorem distinct_of_toItems (items : List Source) {position : Nat} {vs : List Json}
    (read : toItems position items = .ok vs) : ∀ v ∈ vs, v.distinct = true := by
  match items with
  | [] =>
      rw [toItems] at read
      cases read
      simp
  | s :: rest =>
      rw [toItems] at read
      split at read
      · cases read
      · next first =>
          obtain ⟨us, others, rfl⟩ := map_eq_ok.mp read
          rw [List.forall_mem_cons]
          exact ⟨distinct_of_toJson s first, distinct_of_toItems rest others⟩
termination_by sizeOf items

theorem distinct_of_toFields (entries : List (SourceEntry Source))
    {before fields : List (String × Json)}
    (dictionary : Fields.DictionaryOf (fun v => v.distinct = true) before)
    (read : toFields before entries = .ok fields) :
    Fields.DictionaryOf (fun v => v.distinct = true) fields := by
  match entries with
  | [] =>
      rw [toFields] at read
      cases read
      exact dictionary
  | ⟨key, s, passedOver⟩ :: rest =>
      rw [toFields] at read
      split at read
      · cases read
      · next first =>
          exact distinct_of_toFields rest (dictionary.insert key (distinct_of_toJson s first)) read
termination_by sizeOf entries

end

mutual

/-- A parsed value is read as it is. -/
theorem toJson_ofJson (v : Json) (distinct : v.distinct = true) : (ofJson v).toJson = .ok v := by
  cases v with
  | array items =>
      rw [Json.distinct, Json.distinctItems_iff] at distinct
      rw [ofJson, toJson, toItems_ofItems items distinct]
  | object fields =>
      rw [Json.distinct_object] at distinct
      rw [ofJson, toJson, toFields_ofFields fields [] distinct.1 distinct.2]
      rfl
  | _ => rfl
termination_by structural v

theorem toItems_ofItems (items : List Json) (distinct : ∀ v ∈ items, v.distinct = true) (position : Nat) :
    toItems position (ofItems items) = .ok items := by
  match items with
  | [] => rfl
  | v :: rest =>
      obtain ⟨first, others⟩ := List.forall_mem_cons.mp distinct
      rw [ofItems, toItems, toJson_ofJson v first, toItems_ofItems rest others]
      rfl
termination_by structural items

/-- The names that have been read are not set again. -/
theorem toFields_ofFields (fields before : List (String × Json)) (once : Fields.Distinct (before ++ fields))
    (distinct : ∀ name v, (name, v) ∈ fields → v.distinct = true) :
    toFields before (ofFields fields) = .ok (before ++ fields) := by
  match fields with
  | [] => rw [ofFields, toFields, List.append_nil]
  | (key, v) :: rest =>
      obtain ⟨first, others⟩ := Fields.forall_mem_cons.mp distinct
      have fresh : Fields.insert before key v = before ++ [(key, v)] :=
        Fields.insert_of_fresh once.fresh
      have behind : before ++ (key, v) :: rest = before ++ [(key, v)] ++ rest := by
        rw [List.append_assoc, List.singleton_append]
      rw [behind] at once
      rw [ofFields, toFields, toJson_ofJson v first]
      dsimp only
      rw [fresh, toFields_ofFields rest _ once others, behind]
termination_by structural fields

end

end Source

end GraphQuery
