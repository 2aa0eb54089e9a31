import GraphQuery.Descriptor.Keeping
import GraphQuery.Json.Distinct
import GraphQuery.Proofs.Descriptor.Alternatives
import GraphQuery.Proofs.Descriptor.FirstMatch
import GraphQuery.Proofs.Descriptor.Restriction

/-!
# The shape of a raw value

A value has its own shape, so it parses with it. What comes out is the value without some keys of
objects in lists: an item is parsed by the first item whose shape it has, and that one may have fewer
keys.
-/

namespace GraphQuery

namespace Descriptor

open Outcome

theorem ofValues_eq_map (xs : List Json) : ofValues xs = xs.map ofValue := by
  induction xs with
  | nil => rfl
  | cons x rest ih => rw [ofValues, ih, List.map_cons]

theorem ofEntries_eq_map (entries : List (String × Json)) :
    ofEntries entries = entries.map fun entry => (entry.1, ofValue entry.2) := by
  induction entries with
  | nil => rfl
  | cons entry rest ih => rw [ofEntries, ih, List.map_cons]

theorem names_ofEntries (entries : List (String × Json)) :
    Fields.names (ofEntries entries) = Fields.names entries := by
  rw [ofEntries_eq_map, Fields.names, Fields.names, List.map_map]
  rfl

theorem mem_ofEntries {entries : List (String × Json)} {name : String} {t : Descriptor} :
    (name, t) ∈ ofEntries entries ↔ ∃ v, (name, v) ∈ entries ∧ ofValue v = t := by
  rw [ofEntries_eq_map, List.mem_map]
  simp

/-- A raw value is there, and its shape asks for it to be. -/
theorem acceptsAbsent_ofValue (v : Json) : (ofValue v).acceptsAbsent = false := by
  cases v <;> rfl

theorem distinct_ofValue {v : Json} (dictionary : v.distinct = true) : (ofValue v).Distinct := by
  induction v using Json.induction with
  | array xs each =>
      rw [Json.distinct, Json.distinctItems_iff] at dictionary
      rw [ofValue, ofValues_eq_map]
      refine (Distinct.unionOf ?_).list
      intro t member
      obtain ⟨x, inside, rfl⟩ := List.mem_map.mp member
      exact each x inside (dictionary x inside)
  | object entries each =>
      obtain ⟨once, parts⟩ := Json.distinct_object.mp dictionary
      intro fields part
      rw [ofValue] at part
      cases part with
      | self =>
          rw [Fields.Distinct, names_ofEntries]
          exact once
      | field member part =>
          obtain ⟨x, inside, rfl⟩ := mem_ofEntries.mp member
          exact each _ x inside (parts _ x inside) fields part
  | _ =>
      intro fields part
      cases part

/-- Every value has its own shape. -/
theorem validate_ofValue {v : Json} (dictionary : v.distinct = true) :
    (ofValue v).validate v = true := by
  induction v using Json.induction with
  | array xs each =>
      rw [Json.distinct, Json.distinctItems_iff] at dictionary
      rw [ofValue, validate, check, List.all_eq_true, ofValues_eq_map]
      intro x inside
      exact (check_unionOf _ _).mpr
        ⟨ofValue x, List.mem_map_of_mem inside, each x inside (dictionary x inside)⟩
  | object entries each =>
      obtain ⟨once, parts⟩ := Json.distinct_object.mp dictionary
      rw [ofValue, validate, check, checkFields_iff]
      intro name t member
      obtain ⟨x, inside, rfl⟩ := mem_ofEntries.mp member
      rw [once.lookup inside]
      exact each name x inside (parts name x inside)
  | _ => rfl

/-! ## What is lost -/

section

variable {ys xs ws : List Json} {given entries kept : List (String × Json)} {x w : Json}

theorem alike_array : Json.Alike (.array ws) (.array xs) ↔ List.Forall₂ Json.Alike ws xs := by
  refine ⟨?_, .array⟩
  intro alike
  cases alike with
  | same => exact List.forall₂_same.mpr fun v _ => .same v
  | array each => exact each

/-- An item is kept whole if the first item keeps it whose shape it has. -/
theorem alike_iff_firstKeeps
    (each : ∀ y ∈ ys, ∀ w, (ofValue y).parse x = .ok w → (Json.Alike w x ↔ y.keeps x = true))
    (parsed : parseFirst (ofValues ys) x = some w) :
    Json.Alike w x ↔ Json.firstKeeps ys x = true := by
  induction ys with
  | nil => cases parsed
  | cons y rest ih =>
      rw [List.forall_mem_cons] at each
      rw [ofValues, parseFirst] at parsed
      rw [Json.firstKeeps, validate, ← isOk_parse]
      cases first : (ofValue y).parse x with
      | ok w' =>
          rw [first] at parsed
          cases parsed
          exact each.1 w first
      | error e =>
          rw [first] at parsed
          exact ih each.2 parsed

theorem alike_iff_keeps_array
    (each : ∀ y ∈ ys, ∀ x w, (ofValue y).parse x = .ok w → (Json.Alike w x ↔ y.keeps x = true))
    (parsed : (ofValue (.array ys)).parse (.array xs) = .ok w) :
    Json.Alike w (.array xs) ↔ (Json.array ys).keeps (.array xs) = true := by
  rw [ofValue, parse_list] at parsed
  obtain ⟨ws, done, rfl⟩ := map_eq_ok.mp parsed
  obtain ⟨length, items⟩ := traverseFrom_eq_ok done
  rw [alike_array, List.forall₂_iff_get, Json.keeps, List.all_eq_true]
  have item (k : Nat) (atOutput : k < ws.length) (atInput : k < xs.length) :
      Json.Alike ws[k] xs[k] ↔ Json.firstKeeps ys xs[k] = true := by
    have here := mapError_eq_ok.mp (items k _ _ (List.getElem?_eq_getElem atInput)
      (List.getElem?_eq_getElem atOutput))
    refine alike_iff_firstKeeps (fun y member => each y member _) ?_
    rw [← toOption_parse_unionOf, here]
    rfl
  refine ⟨?_, ?_⟩
  · rintro ⟨_, alike⟩ x inside
    obtain ⟨k, atInput, rfl⟩ := List.mem_iff_getElem.mp inside
    have atOutput : k < ws.length := length ▸ atInput
    exact (item k atOutput atInput).mp (alike k atOutput atInput)
  · intro keep
    refine ⟨length, ?_⟩
    intro k atOutput atInput
    exact (item k atOutput atInput).mpr (keep _ (List.getElem_mem atInput))

/-- Every field of the shape of an object is asked for. -/
theorem parseFields_ofEntries_cons {key : String} {y : Json}
    (parsed : parseFields (ofEntries ((key, y) :: given)) entries = .ok kept) :
    ∃ x w others, entries.lookup key = some x ∧ (ofValue y).parse x = .ok w ∧
      parseFields (ofEntries given) entries = .ok others ∧ kept = (key, w) :: others := by
  rw [ofEntries, parseFields] at parsed
  split at parsed
  · rw [acceptsAbsent_ofValue] at parsed
    cases parsed
  · next x found =>
      split at parsed
      · cases parsed
      · next w first =>
          split at parsed
          · cases parsed
          · next others done =>
              cases parsed
              exact ⟨x, w, others, found, first, done, rfl⟩

theorem forall_lookup_cons {key : String} (fresh : kept.lookup key = none)
    (found : entries.lookup key = some x) :
    (∀ name v u, List.lookup name ((key, w) :: kept) = some v → entries.lookup name = some u →
      Json.Alike v u) ↔
    Json.Alike w x ∧ ∀ name v u, kept.lookup name = some v → entries.lookup name = some u →
      Json.Alike v u := by
  refine ⟨?_, ?_⟩
  · intro all
    refine ⟨all key w x List.lookup_cons_self found, ?_⟩
    intro name v u result there
    refine all name v u ?_ there
    rw [Fields.lookup_cons_of_ne]
    · exact result
    · rintro rfl
      rw [fresh] at result
      cases result
  · rintro ⟨here, behind⟩ name v u result there
    rcases Fields.lookup_cons_eq_some.mp result with ⟨rfl, rfl⟩ | ⟨_, result⟩
    · rw [found] at there
      cases there
      exact here
    · exact behind name v u result there

/-- Under the keys that are kept nothing is lost. -/
theorem alike_iff_fieldsKeep (once : Fields.Distinct given)
    (each : ∀ name y, (name, y) ∈ given → ∀ x w, (ofValue y).parse x = .ok w →
      (Json.Alike w x ↔ y.keeps x = true))
    (parsed : parseFields (ofEntries given) entries = .ok kept) :
    (∀ name w x, kept.lookup name = some w → entries.lookup name = some x → Json.Alike w x) ↔
      Json.fieldsKeep given entries = true := by
  induction given generalizing kept with
  | nil =>
      cases parsed
      simp [Json.fieldsKeep]
  | cons entry rest ih =>
      obtain ⟨key, y⟩ := entry
      rw [Fields.forall_mem_cons] at each
      obtain ⟨fresh, once⟩ := List.nodup_cons.mp once
      obtain ⟨x, w, others, found, first, done, rfl⟩ := parseFields_ofEntries_cons parsed
      have elsewhere : others.lookup key = none := by
        rw [Fields.lookup_eq_none, mem_names_kept (restricted_of_parseFields _ done).names,
          names_ofEntries]
        exact fun both => fresh both.1
      rw [forall_lookup_cons elsewhere found, each.1 x w first, ih once each.2 done,
        Json.fieldsKeep, found, Option.all_some, Bool.and_eq_true]

/-- Objects are alike when no key is missing and nothing is lost under any. -/
theorem alike_object_of_kept {fields : List (String × Descriptor)}
    (names : Fields.names kept = (Fields.names fields).filter (Fields.contains entries)) :
    Json.Alike (.object kept) (.object entries) ↔
      (∀ name ∈ Fields.names entries, name ∈ Fields.names fields) ∧
        ∀ name w x, kept.lookup name = some w → entries.lookup name = some x → Json.Alike w x := by
  refine ⟨?_, ?_⟩
  · intro alike
    refine ⟨?_, ?_⟩
    · intro name member
      obtain ⟨x, there⟩ := Fields.lookup_of_mem_names member
      have same := alike.lookup name
      rw [there] at same
      cases result : kept.lookup name with
      | none =>
          rw [result] at same
          cases same
      | some w =>
          exact ((mem_names_kept names).mp (List.mem_map_of_mem (Fields.mem_of_lookup result))).1
    · intro name w x result there
      have same := alike.lookup name
      rw [result, there] at same
      cases same with
      | some alike => exact alike
  · rintro ⟨declared, each⟩
    refine .object ?_
    intro name
    cases there : entries.lookup name with
    | some x =>
        have member : name ∈ Fields.names entries := List.mem_map_of_mem (Fields.mem_of_lookup there)
        obtain ⟨w, result⟩ := Fields.lookup_of_mem_names
          ((mem_names_kept names).mpr ⟨declared name member, member⟩)
        rw [result]
        exact .some (each name w x result there)
    | none =>
        rw [Fields.lookup_eq_none] at there
        have gone : kept.lookup name = none := by
          rw [Fields.lookup_eq_none, mem_names_kept names]
          exact fun both => there both.2
        rw [gone]
        exact .none

theorem alike_iff_keeps {y : Json} (dictionary : y.distinct = true) {x w : Json}
    (parsed : (ofValue y).parse x = .ok w) : Json.Alike w x ↔ y.keeps x = true := by
  induction y using Json.induction generalizing x w with
  | array ys each =>
      rw [Json.distinct, Json.distinctItems_iff] at dictionary
      cases x with
      | array xs =>
          exact alike_iff_keeps_array (fun y member _ _ => each y member (dictionary y member)) parsed
      | _ => simp [ofValue, parse, acceptsScalar] at parsed
  | object given each =>
      obtain ⟨once, parts⟩ := Json.distinct_object.mp dictionary
      cases x with
      | object entries =>
          rw [ofValue, parse] at parsed
          split at parsed
          · cases parsed
          · next kept done =>
              cases parsed
              have names := (restricted_of_parseFields _ done).names
              rw [alike_object_of_kept names, names_ofEntries, alike_iff_fieldsKeep once
                (fun name y member _ _ => each name y member (parts name y member)) done]
              simp only [Json.keeps, Bool.and_eq_true, List.all_eq_true, Fields.contains_iff_mem]
      | _ => simp [ofValue, parse, acceptsScalar] at parsed
  | _ =>
      -- A value without parts comes out as it went in.
      cases restricted_of_parse _ parsed
      exact ⟨fun _ => by simp [Json.keeps], fun _ => .same _⟩

end

/-- **Raw values and their own shapes.** A value parses with its own shape, and nothing happens to it
but that keys of its objects are lost or moved. None is lost exactly when no item of a list has a key
that is missing from the first item whose shape it has. -/
theorem parse_ofValue {v : Json} (dictionary : v.distinct = true) :
    ∃ w, (ofValue v).parse v = .ok w ∧ Json.Restricts w v ∧
      (Json.Alike w v ↔ v.keeps v = true) := by
  have accepted := validate_ofValue dictionary
  rw [validate, ← isOk_parse] at accepted
  cases parsed : (ofValue v).parse v with
  | error e =>
      rw [parsed] at accepted
      cases accepted
  | ok w =>
      have restricted := restricted_of_parse _ parsed
      exact ⟨w, rfl, restricted.restricts (distinct_ofValue dictionary),
        alike_iff_keeps dictionary parsed⟩

end Descriptor

namespace Route

open Descriptor (ofValue)

/-- A stop of a route. -/
def stop (place : String) : Json := .object [("place", .string place)]

/-- A stop with a note. -/
def noted (place note : String) : Json :=
  .object [("place", .string place), ("note", .string note)]

/-- A note at the first stop. The second stop does not have the shape of the first one. -/
def noteFirst : Json := .array [noted "A" "late", stop "B"]

/-- A note at the second stop, which has the shape of the first one all the same. -/
def noteSecond : Json := .array [stop "A", noted "B" "late"]

/-- The first note is kept. -/
theorem parse_ofValue_noteFirst : noteFirst.distinct = true ∧
    ∃ w, (ofValue noteFirst).parse noteFirst = .ok w ∧ Json.Alike w noteFirst := by
  have dictionary : noteFirst.distinct = true := by decide
  obtain ⟨w, parsed, _, alike⟩ := Descriptor.parse_ofValue dictionary
  exact ⟨dictionary, w, parsed, alike.mpr (by decide)⟩

/-- The second note is lost, though it has a place in the shape of the value. -/
theorem parse_ofValue_drops_note : noteSecond.distinct = true ∧
    (ofValue noteSecond).parse noteSecond = .ok (.array [stop "A", stop "B"]) ∧
      ¬ Json.Alike (.array [stop "A", stop "B"]) noteSecond := by
  have dictionary : noteSecond.distinct = true := by decide
  have parsed : (ofValue noteSecond).parse noteSecond = .ok (.array [stop "A", stop "B"]) := rfl
  refine ⟨dictionary, parsed, ?_⟩
  rw [Descriptor.alike_iff_keeps dictionary parsed]
  decide

end Route

end GraphQuery
