import GraphQuery.Proofs.Descriptor.Decode
import GraphQuery.Proofs.Json.Faults

/-!
# Decoding undoes encoding

A descriptor that was encoded is decoded to itself, also where it was held back first. Every form that
is written is read by the way it was written in: a list's shape is an object, so it is not taken for
the shapes of a tuple, and a constant has the form of its kind.
-/

namespace GraphQuery

/-- A parsed value has no fault, so it can be held back. -/
theorem Decode.buffer_ofJson (v : Json) : buffer (Source.ofJson v) = .ok () := by
  have whole := Source.not_faulty_ofJson v
  unfold buffer
  split
  · next faulty =>
      rw [Source.Faulty, faulty] at whole
      exact absurd rfl whole
  · rfl

namespace Descriptor.Decode

open GraphQuery.Decode

/-! ## Kinds -/

theorem kind_name (origin : Origin) (k : Kind) : kind origin (.string k.name) = .ok k := by
  cases k <;> rfl

/-- Nothing comes behind the parts. -/
theorem thenRest_closed (r : Except DecodeError Descriptor) : thenRest .closed r [] = r := by
  cases r <;> rfl

theorem decode_encodeUnit (origin : Origin) (k : Kind) :
    decode origin (.ofJson (encodeUnit k)) = withoutParts k := by
  show decode origin (.object [⟨"kind", .string k.name, none⟩] .closed) = _
  rw [decode, fromEntries, if_pos rfl, kind_name]
  show ofKind origin .closed k [] = _
  rw [ofKind]
  · rfl
  · intro key fault same
    cases same

/-- The parts of a kind are read in the way of the kind. -/
theorem decode_encodeWith (origin : Origin) (k : Kind) (parts : Json) :
    decode origin (.ofJson (encodeWith k parts)) =
      (withParts origin k (.ofJson parts)
        ⟨fun o => decode o (.ofJson parts), fun o => decodeList o (.ofJson parts),
          fun o => decodeObject o (.ofJson parts)⟩).mapError (DecodeError.under (.key "of")) := by
  show decode origin
    (.object [⟨"kind", .string k.name, none⟩, ⟨"of", .ofJson parts, none⟩] .closed) = _
  rw [decode, fromEntries, if_pos rfl, kind_name]
  show ofKind origin .closed k [⟨"of", .ofJson parts, none⟩] = _
  have parted : ¬ "of" = "kind" := by decide
  rw [ofKind, if_neg parted, if_pos rfl, thenRest_closed]

theorem literalParts_toJson (l : Literal) : literalParts (.ofJson l.toJson) = .ok (.literal l) := by
  cases l <;> rfl

/-- What is encoded is an object. -/
theorem encode_object (t : Descriptor) : ∃ entries, t.encode = .object entries := by
  cases t <;> exact ⟨_, rfl⟩

/-- So it is not read as a sequence. -/
theorem decodeList_encode (origin : Origin) (t : Descriptor) :
    ∃ e, decodeList origin (.ofJson t.encode) = .error e := by
  obtain ⟨entries, form⟩ := encode_object t
  rw [form]
  exact ⟨_, rfl⟩

theorem decodeList_array (origin : Origin) (vs : List Json) :
    decodeList origin (.ofJson (.array vs)) = decodeItems origin 0 (Source.ofItems vs) := by
  rw [Source.ofJson, decodeList]
  cases decodeItems origin 0 (Source.ofItems vs) <;> rfl

theorem decodeObject_object (origin : Origin) (entries : List (String × Json)) :
    decodeObject origin (.ofJson (.object entries)) =
      decodeFields origin [] (Source.ofFields entries) := by
  rw [Source.ofJson, decodeObject]
  cases decodeFields origin [] (Source.ofFields entries) <;> rfl

/-- The parts of an array are the shapes of a tuple if they can be read so. -/
theorem arrayParts_of_items {parts : Parts} {items : List Descriptor} (v : Json)
    (read : parts.items .shared = .ok items) : arrayParts parts (.ofJson v) = .ok (tuple items) := by
  rw [arrayParts, buffer_ofJson, read]
  rfl

theorem arrayParts_of_one {parts : Parts} {item : Descriptor} {e : DecodeError} (v : Json)
    (refused : parts.items .shared = .error e) (read : parts.one .shared = .ok item) :
    arrayParts parts (.ofJson v) = .ok (list item) := by
  rw [arrayParts, buffer_ofJson, refused, read]
  rfl

/-! ## Descriptors -/

mutual

/-- The induction is on the descriptor, for all origins at once, since the shapes inside an array are
held back. -/
theorem decode_encode (t : Descriptor) (distinct : t.Distinct) (origin : Origin) :
    decode origin (.ofJson t.encode) = .ok t := by
  cases t with
  | literal l =>
      rw [encode, decode_encodeWith, withParts, literalParts_toJson]
      rfl
  | option inner =>
      have read := decode_encode inner (distinct.of_occurs (.option .self)) origin
      rw [encode, decode_encodeWith]
      show ((decode origin (.ofJson inner.encode)).map option).mapError _ = _
      rw [read]
      rfl
  | record table =>
      cases table with
      | none =>
          rw [encode, decode_encodeWith]
          rfl
      | some name =>
          rw [encode, decode_encodeWith]
          rfl
  | object fields =>
      have parts name t (member : (name, t) ∈ fields) : t.Distinct :=
        distinct.of_occurs (.field member .self)
      have read := decodeFields_encodeFields fields parts origin [] (distinct fields .self)
      rw [encode, decode_encodeWith]
      show ((decodeObject origin (.ofJson (.object (encodeFields fields)))).map object).mapError _ = _
      rw [decodeObject_object, read]
      rfl
  | list item =>
      have read := decode_encode item (distinct.of_occurs (.item .self)) .shared
      -- The shapes of a tuple are tried first and refused.
      obtain ⟨e, refused⟩ := decodeList_encode .shared item
      rw [encode, decode_encodeWith, withParts, arrayParts_of_one _ refused read]
      rfl
  | tuple items =>
      have parts t (member : t ∈ items) : t.Distinct :=
        distinct.of_occurs (.position member .self)
      have read := decodeItems_encodeItems items parts .shared 0
      rw [← decodeList_array] at read
      rw [encode, decode_encodeWith, withParts, arrayParts_of_items _ read]
      rfl
  | union alts =>
      have parts t (member : t ∈ alts) : t.Distinct :=
        distinct.of_occurs (.alternative member .self)
      have read := decodeItems_encodeItems alts parts origin 0
      rw [encode, decode_encodeWith]
      show ((decodeList origin (.ofJson (.array (encodeItems alts)))).map union).mapError _ = _
      rw [decodeList_array, read]
      rfl
  | _ =>
      rw [encode, decode_encodeUnit]
      rfl
termination_by structural t

theorem decodeItems_encodeItems (ts : List Descriptor) (distinct : ∀ t ∈ ts, t.Distinct)
    (origin : Origin) (position : Nat) :
    decodeItems origin position (Source.ofItems (encodeItems ts)) = .ok ts := by
  match ts with
  | [] => rfl
  | t :: rest =>
      rw [List.forall_mem_cons] at distinct
      rw [encodeItems, Source.ofItems, decodeItems, decode_encode t distinct.1 origin]
      dsimp only
      rw [decodeItems_encodeItems rest distinct.2 origin (position + 1)]
      rfl
termination_by structural ts

/-- Fields are read behind those that were read before them, whose names are others. -/
theorem decodeFields_encodeFields (fields : List (String × Descriptor))
    (distinct : ∀ name t, (name, t) ∈ fields → t.Distinct) (origin : Origin)
    (before : List (String × Descriptor)) (once : Fields.Distinct (before ++ fields)) :
    decodeFields origin before (Source.ofFields (encodeFields fields)) =
      .ok (before ++ fields) := by
  match fields with
  | [] =>
      rw [List.append_nil]
      rfl
  | (name, t) :: rest =>
      rw [Fields.forall_mem_cons] at distinct
      have fresh : name ∉ Fields.names before := once.fresh
      rw [encodeFields, Source.ofFields, decodeFields, decode_encode t distinct.1 origin]
      dsimp only
      rw [Fields.insert_of_fresh fresh]
      -- The field is one of those that were read when the rest is.
      have behind : before ++ (name, t) :: rest = before ++ [(name, t)] ++ rest :=
        List.append_cons before (name, t) rest
      rw [behind] at once ⊢
      exact decodeFields_encodeFields rest distinct.2 origin _ once
termination_by structural fields

end

end Descriptor.Decode

end GraphQuery
