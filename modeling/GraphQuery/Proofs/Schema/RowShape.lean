import GraphQuery.Proofs.Descriptor.Absence
import GraphQuery.Proofs.Descriptor.Placing
import GraphQuery.Schema.Database

/-!
# Rows field by field

A document has the shape of an object when what it has under each declared name fits. In the shape of a row
a declared field takes the place of the generated key of its name; the other generated keys are there as
they are, and in the shape of a document for a new row they may be missing.
-/

namespace GraphQuery

namespace Descriptor

variable {fields : List (String × Descriptor)} {entries : List (String × Json)}

/-- An object is checked field by field. -/
theorem validate_object_iff (distinct : Fields.Distinct fields) :
    (object fields).validate (.object entries) = true ↔
      ∀ name ∈ Fields.names fields,
        ((object fields).get (.field name)).check (entries.lookup name) = true := by
  rw [validate, check, checkFields_iff]
  constructor
  · intro each name declared
    obtain ⟨t, found⟩ := Fields.lookup_of_mem_names declared
    rw [get_of_lookup found]
    exact each name t (Fields.mem_of_lookup found)
  · intro each name t member
    have fits := each name (List.mem_map_of_mem member)
    rwa [get_of_lookup (distinct.lookup member)] at fits

end Descriptor

namespace Declaration

open Descriptor

variable {d : Declaration} {key : String} {t : Descriptor}

theorem distinct_generatedKeys (d : Declaration) : Fields.Distinct d.generatedKeys := by
  cases d with
  | table => exact List.nodup_singleton "id"
  | edge =>
      show ["id", "in", "out"].Nodup
      decide

/-- The keys that the server fills in, as a document for a new row may leave them out. -/
def optionalKeys (d : Declaration) : List (String × Descriptor) :=
  d.generatedKeys.map fun (name, t) => (name, t.optional)

theorem names_optionalKeys (d : Declaration) :
    Fields.names d.optionalKeys = Fields.names d.generatedKeys :=
  List.map_map

theorem inputType_eq (d : Declaration) :
    d.inputType = object (Fields.extend d.optionalKeys d.fields) := rfl

theorem distinct_optionalKeys (d : Declaration) : Fields.Distinct d.optionalKeys := by
  rw [Fields.Distinct, names_optionalKeys]
  exact d.distinct_generatedKeys

theorem validate_inputType_iff {entries : List (String × Json)} :
    d.inputType.validate (.object entries) = true ↔
      ∀ name, name ∈ Fields.names d.generatedKeys ∨ name ∈ Fields.names d.fields →
        (d.inputType.get (.field name)).check (entries.lookup name) = true := by
  rw [inputType_eq, validate_object_iff (d.distinct_optionalKeys.extend d.fields)]
  simp only [Fields.mem_names_extend, names_optionalKeys]

/-- A generated key that is not declared again is in the row as it is generated. -/
theorem get_recordType (generated : d.generatedKeys.lookup key = some t)
    (fresh : key ∉ Fields.names d.fields) : d.recordType.get (.field key) = t := by
  rw [recordType]
  apply get_of_lookup
  rw [Fields.lookup_extend_of_none (Fields.lookup_eq_none.mpr fresh), generated]

/-- A generated key that is not declared again may be missing in a new document. -/
theorem get_inputType (generated : d.generatedKeys.lookup key = some t)
    (fresh : key ∉ Fields.names d.fields) : d.inputType.get (.field key) = t.optional := by
  rw [inputType_eq]
  apply get_of_lookup
  rw [Fields.lookup_extend_of_none (Fields.lookup_eq_none.mpr fresh), optionalKeys, Fields.lookup_map,
    generated, Option.map_some]

/-- A link accepts a reference if its table is one of the tables, however often it is listed. -/
theorem validate_linkTo {tables : List String} {v : Json} {ref : RecordRef}
    (read : RecordRef.ofJson? v = some ref) :
    (linkTo tables).validate v = tables.contains ref.table := by
  have single : ∀ table : String,
      (record (some table)).check (some v) = true ↔ ref.table = table := by
    intro table
    show acceptsRecord (some table) v = true ↔ _
    unfold acceptsRecord
    rw [read]
    exact beq_iff_eq
  rw [Bool.eq_iff_iff, validate, linkTo, check_unionOf, List.contains_iff_mem]
  constructor
  · rintro ⟨link, member, fits⟩
    obtain ⟨table, listed, rfl⟩ := List.mem_map.mp member
    rwa [(single table).mp fits]
  · intro listed
    exact ⟨_, List.mem_map_of_mem listed, (single ref.table).mpr rfl⟩

end Declaration

end GraphQuery
