import GraphQuery.Proofs.Outcome
import GraphQuery.Proofs.Query.DeepMerge
import GraphQuery.Proofs.Query.Document
import GraphQuery.Statement.Update

/-!
# Merging twice

An update that merges two documents binds one document: the keys of both, and under a common key the
later value alone. The record merges deeply, so what the earlier document has below a common key is
lost unless the later one overrides it.
-/

namespace GraphQuery

open Outcome
open Document (deepMerge Overrides)

namespace PayloadSlot

variable {slot result : PayloadSlot} {input : Descriptor} {document : Json}

theorem checkPartial_of_merge (merged : slot.merge input document = .ok result) :
    Document.checkPartial input document = .ok () := by
  unfold PayloadSlot.merge at merged
  obtain ⟨_, _, rest⟩ := bind_eq_ok.mp merged
  obtain ⟨_, checked, _⟩ := bind_eq_ok.mp rest
  exact mapError_eq_ok.mp checked

/-- The first document is bound as it is. -/
theorem merge_none (checked : Document.checkPartial input document = .ok ()) :
    PayloadSlot.merge none input document = .ok (some (.merge document)) := by
  unfold PayloadSlot.merge
  rw [checked]
  rfl

/-- A later one is put together with those before it. -/
theorem merge_some (before : Json) (checked : Document.checkPartial input document = .ok ()) :
    PayloadSlot.merge (some (.merge before)) input document =
      .ok (some (.merge (Document.merge before document))) := by
  unfold PayloadSlot.merge
  rw [checked]
  rfl

end PayloadSlot

namespace Update

theorem slot_of_merge {u u' : Update} {document : Json} (merged : u.merge document = .ok u') :
    u.payload.merge u.input document = .ok u'.payload := by
  obtain ⟨payload, done, rfl⟩ := map_eq_ok.mp merged
  exact done

/-- Merging twice binds one document, which does to every record what the two do one after the other
exactly if the later one overrides the earlier one under every key that both name. -/
theorem merge_twice {u u₁ u₂ : Update} {a b : Json} (fresh : u.payload = none)
    (first : u.merge a = .ok u₁) (second : u₁.merge b = .ok u₂) (distinct : a.distinct = true)
    (distinct' : b.distinct = true) :
    ∃ earlier later, a = .object earlier ∧ b = .object later ∧
      u₂.payload = some (.merge (.object (Fields.extend earlier later))) ∧
      ((∀ base, Json.Alike (deepMerge (.object base) (.object (Fields.extend earlier later)))
          (deepMerge (deepMerge (.object base) a) b)) ↔
        ∀ name v w, earlier.lookup name = some v → later.lookup name = some w →
          Overrides w v) := by
  have merged := slot_of_merge first
  have mergedAgain := slot_of_merge second
  have checked := PayloadSlot.checkPartial_of_merge merged
  have checkedAgain := PayloadSlot.checkPartial_of_merge mergedAgain
  rw [fresh, PayloadSlot.merge_none checked] at merged
  rw [← Except.ok.inj merged, PayloadSlot.merge_some a checkedAgain] at mergedAgain
  obtain ⟨earlier, rfl⟩ := Document.object_of_checkPartial checked
  obtain ⟨later, rfl⟩ := Document.object_of_checkPartial checkedAgain
  exact ⟨earlier, later, rfl, rfl, (Except.ok.inj mergedAgain).symm,
    Document.deepMerge_merge_iff distinct distinct'⟩

end Update

namespace Renaming

/-- The two parts of a name. -/
def parts : Descriptor := .object [("first", .string), ("last", .string)]

def person : Declaration := .table ⟨"person", [("name", parts), ("age", .number)]⟩

def schema : Database := Database.empty.declare person

/-- An update of all persons that merges a document, if there is one. -/
def update (document : Option Json) : Update where
  scope := ⟨0⟩
  upsert := false
  target := .table "person"
  row := person.recordType
  input := person.inputType
  only := false
  payload := document.map .merge
  condition := none
  trailer := .empty

/-- One part of a name. -/
def name (part value : String) : Json := .object [("name", .object [(part, .string value)])]

def firstName : Json := name "first" "A"

def lastName : Json := name "last" "B"

def age : Json := .object [("age", .int 2)]

theorem accepts_name {part value : String}
    (fits : Document.checkAssignment parts part (.string value) = .ok ()) :
    Document.checkPartial person.inputType (name part value) = .ok () := by
  rw [name, Document.checkPartial]
  have inside : Document.checkEntries parts [(part, .string value)] = .ok () :=
    Document.checkEntries_plain rfl fits (Document.checkEntries_nil parts)
  exact Document.checkEntries_object rfl inside (Document.checkEntries_nil _)

theorem accepts_age : Document.checkPartial person.inputType age = .ok () := by
  rw [age, Document.checkPartial]
  exact Document.checkEntries_plain rfl rfl (Document.checkEntries_nil _)

theorem merge_firstName : (update none).merge firstName = .ok (update firstName) :=
  congrArg (update none).withPayload (PayloadSlot.merge_none (accepts_name rfl))

/-- A document behind the first name. -/
theorem merge_behind_firstName {document : Json}
    (accepts : Document.checkPartial person.inputType document = .ok ()) :
    (update firstName).merge document = .ok (update (Document.merge firstName document)) :=
  congrArg (update firstName).withPayload (PayloadSlot.merge_some firstName accepts)

/-- A name and an age are not under one key, so nothing is lost of either. -/
theorem merge_twice_name_age :
    Update.of schema ⟨0⟩ false (.table "person") = .ok (update none) ∧
      (update none).merge firstName = .ok (update firstName) ∧
      (update firstName).merge age = .ok (update (Document.merge firstName age)) ∧
      firstName.distinct = true ∧ age.distinct = true ∧
      ∀ base, Json.Alike (deepMerge (.object base) (Document.merge firstName age))
        (deepMerge (deepMerge (.object base) firstName) age) := by
  refine ⟨rfl, merge_firstName, merge_behind_firstName accepts_age, by decide, by decide, ?_⟩
  obtain ⟨earlier, later, first, second, _, nothingLost⟩ :=
    Update.merge_twice rfl merge_firstName (merge_behind_firstName accepts_age) (by decide)
      (by decide)
  cases first
  cases second
  refine nothingLost.mpr ?_
  intro name v w old new
  -- The only key of the later document is not one of the earlier.
  rcases Fields.lookup_cons_eq_some.mp new with ⟨rfl, _⟩ | ⟨_, new⟩
  · cases old
  · cases new

/-- A first name is lost when the last name is merged behind it. -/
theorem merge_twice_loses_name :
    Update.of schema ⟨0⟩ false (.table "person") = .ok (update none) ∧
      (update none).merge firstName = .ok (update firstName) ∧
      (update firstName).merge lastName = .ok (update lastName) ∧
      ¬ Json.Alike (deepMerge (.object []) lastName)
        (deepMerge (deepMerge (.object []) firstName) lastName) := by
  refine ⟨rfl, merge_firstName, merge_behind_firstName (accepts_name rfl), ?_⟩
  intro alike
  have names := alike.lookup "name"
  cases names with
  | some names =>
      have first := names.lookup "first"
      cases first

end Renaming

end GraphQuery
