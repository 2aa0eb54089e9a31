import GraphQuery.Proofs.Decode.Reader
import GraphQuery.Proofs.Descriptor.RoundTrip
import GraphQuery.Schema.Declaration

/-!
# A schema survives being written and read

A declaration is written with its type first, so the body is read as it was written, held back though
it is. Main statement: descriptors and declarations are decoded from their JSON values as they were.
-/

namespace GraphQuery

namespace Declaration.Decode

open GraphQuery.Decode

theorem list_encodeNames (origin : Origin) (names : List String) :
    list string origin (.ofJson (encodeNames names)) = .ok names := by
  have read : list string origin (.ofJson (encodeNames names)) = .ok (names.map id) :=
    list_ofJson fun _ _ => rfl
  rwa [List.map_id] at read

/-- What comes behind the type is held back. -/
theorem separate_behind_type (origin : Origin) (type : Nat) {entries : List (String × Json)}
    (untyped : "type" ∉ Fields.names entries) :
    separate origin .closed (some type) (Source.ofFields entries) =
      .ok (some type, Source.ofFields entries) := by
  induction entries with
  | nil =>
      rw [Source.ofFields, separate]
      · rfl
      · intro key fault same
        cases same
  | cons entry rest ih =>
      obtain ⟨key, v⟩ := entry
      rw [Fields.names_cons, List.mem_cons, not_or] at untyped
      rw [Source.ofFields, separate, if_neg (Ne.symm untyped.1), buffer_ofJson]
      dsimp only
      rw [ih untyped.2]
      rfl

/-- The body of a declaration is read as its type says. -/
theorem declaration_typed (origin : Origin) (type : Nat) {name : String}
    {entries : List (String × Json)} (known : identifier types origin (.string name) = .ok type)
    (untyped : "type" ∉ Fields.names entries) :
    declaration origin (.ofJson (.object (("type", .string name) :: entries))) =
      body type (.object (Source.ofFields entries) .closed) := by
  have parts : separate origin .closed none
      (Source.ofFields (("type", .string name) :: entries)) =
        .ok (some type, Source.ofFields entries) := by
    have value : identifier types origin (Source.ofJson (.string name)) = .ok type := known
    rw [Source.ofFields, separate, if_pos rfl, if_neg (by simp)]
    dsimp only
    rw [value]
    exact separate_behind_type origin type untyped
  rw [Source.ofJson, declaration, parts]
  rfl

/-- The fields of a table or an edge are read into what has been read of it. -/
theorem read_fieldsField {fields : List (String × Descriptor)}
    (dictionary : Fields.DictionaryOf Descriptor.Distinct fields) (origin : Origin) (d : Draft) :
    fieldsField.read d origin (.ofJson (.object (Descriptor.encodeFields fields))) =
      .ok { d with fields := fields } := by
  have read := Descriptor.Decode.decodeFields_encodeFields fields dictionary.2 origin [] dictionary.1
  show (Descriptor.Decode.fields origin _).map _ = _
  rw [Descriptor.Decode.fields, Descriptor.Decode.decodeObject_object, read]
  rfl

theorem tableBody_encode (t : TableDecl)
    (dictionary : Fields.DictionaryOf Descriptor.Distinct t.fields) (origin : Origin) :
    tableBody origin (.object (Source.ofFields [("name", .string t.name),
      ("fields", .object (Descriptor.encodeFields t.fields))]) .closed) = .ok (.table t) := by
  have read : structEntries [nameField, fieldsField] origin .closed Draft.empty []
      (Source.ofFields [("name", .string t.name),
        ("fields", .object (Descriptor.encodeFields t.fields))]) =
        .ok ⟨some t.name, none, none, t.fields⟩ := by
    rw [Source.ofFields, structEntries_cons nameField _ rfl rfl rfl]
    rw [Source.ofFields, structEntries_cons fieldsField _ rfl rfl (read_fieldsField dictionary origin _)]
    exact structEntries_closed
  rw [tableBody, struct, read]
  rfl

theorem edgeBody_encode (e : EdgeDecl)
    (dictionary : Fields.DictionaryOf Descriptor.Distinct e.fields) (origin : Origin) :
    edgeBody origin (.object (Source.ofFields [("name", .string e.name),
      ("from", encodeNames e.sources), ("to", encodeNames e.targets),
      ("fields", .object (Descriptor.encodeFields e.fields))]) .closed) = .ok (.edge e) := by
  have readSources (d : Draft) : sourcesField.read d origin (.ofJson (encodeNames e.sources)) =
      .ok { d with sources := some e.sources } := by
    show (list string origin _).map _ = _
    rw [list_encodeNames]
    rfl
  have readTargets (d : Draft) : targetsField.read d origin (.ofJson (encodeNames e.targets)) =
      .ok { d with targets := some e.targets } := by
    show (list string origin _).map _ = _
    rw [list_encodeNames]
    rfl
  have read : structEntries [nameField, sourcesField, targetsField, fieldsField] origin .closed
      Draft.empty [] (Source.ofFields [("name", .string e.name),
        ("from", encodeNames e.sources), ("to", encodeNames e.targets),
        ("fields", .object (Descriptor.encodeFields e.fields))]) =
        .ok ⟨some e.name, some e.sources, some e.targets, e.fields⟩ := by
    rw [Source.ofFields, structEntries_cons nameField _ rfl rfl rfl]
    rw [Source.ofFields, structEntries_cons sourcesField _ rfl rfl (readSources _)]
    rw [Source.ofFields, structEntries_cons targetsField _ rfl rfl (readTargets _)]
    rw [Source.ofFields, structEntries_cons fieldsField _ rfl rfl (read_fieldsField dictionary origin _)]
    exact structEntries_closed
  rw [edgeBody, struct, read]
  rfl

theorem declaration_encode (d : Declaration)
    (dictionary : Fields.DictionaryOf Descriptor.Distinct d.fields) (origin : Origin) :
    declaration origin (.ofJson d.encode) = .ok d := by
  cases d with
  | table t =>
      -- Wherever the declaration comes from, its body was held back.
      have read := tableBody_encode t dictionary .buffer
      rw [encode, declaration_typed origin 0 rfl (by simp [Fields.names]), body]
      show (tableBody .buffer _).mapError _ = _
      rw [read]
      rfl
  | edge e =>
      have read := edgeBody_encode e dictionary .buffer
      rw [encode, declaration_typed origin 1 rfl (by simp [Fields.names]), body]
      show (edgeBody .buffer _).mapError _ = _
      rw [read]
      rfl

end Declaration.Decode

/-- Decoding undoes encoding: every descriptor and every declaration whose objects name no field twice
is read from the JSON value that it is written as, with its fields in their order. -/
theorem schema_decode_encode :
    (∀ t : Descriptor, t.Distinct → Descriptor.Decode.descriptor.ofJson t.encode = .ok t) ∧
      ∀ d : Declaration, Fields.DictionaryOf Descriptor.Distinct d.fields →
        Declaration.Decode.declaration.ofJson d.encode = .ok d := by
  refine ⟨?_, ?_⟩
  · intro t distinct
    exact Descriptor.Decode.decode_encode t distinct .value
  · intro d dictionary
    exact Declaration.Decode.declaration_encode d dictionary .value

namespace Depot

/-- A shape with a union inside a union, a zero with a sign, a tuple without positions and names that
are keys of the format. -/
def shape : Descriptor :=
  .object [("kind", .union [.literal (.string "of"), .literal (.number (.zero true)), .union []]),
    ("of", .list (.tuple [])), ("", .option (.record none)), ("a.b", .list (.list .absent))]

/-- An edge whose fields are named like the parts of a declaration. -/
def link : Declaration := .edge ⟨"type", ["a", "a"], [], [("name", shape), ("fields", .never)]⟩

theorem distinct_shape : shape.Distinct := by decide

theorem dictionary_link : Fields.DictionaryOf Descriptor.Distinct link.fields := by
  refine ⟨?_, ?_⟩
  · show ["name", "fields"].Nodup
    decide
  · show ∀ name t, (name, t) ∈ [("name", shape), ("fields", .never)] → t.Distinct
    rw [Fields.forall_mem_cons, Fields.forall_mem_cons]
    exact ⟨distinct_shape, by decide, by simp⟩

end Depot

/-- Both are read as they were written. -/
theorem schema_decode_encode_depot :
    Depot.shape.Distinct ∧ Fields.DictionaryOf Descriptor.Distinct Depot.link.fields ∧
      Descriptor.Decode.descriptor.ofJson Depot.shape.encode = .ok Depot.shape ∧
      Declaration.Decode.declaration.ofJson Depot.link.encode = .ok Depot.link :=
  ⟨Depot.distinct_shape, Depot.dictionary_link,
    schema_decode_encode.1 Depot.shape Depot.distinct_shape,
    schema_decode_encode.2 Depot.link Depot.dictionary_link⟩

end GraphQuery
