import GraphQuery.Proofs.Decode.Reader
import GraphQuery.Proofs.Json.Distinct
import GraphQuery.Query.Patch

/-!
# Patches lose null when they are read

An operation without a value is written without the key `value`, one with the value null has that key. Reading
takes null for no value, so the two are told apart in the text and not by the reader. Every other operation is
read as it was written.
-/

namespace GraphQuery.PatchOp

open Decode

variable {p : PatchOp} {ps : List PatchOp}

/-- The operation, with no value in the place of null. -/
def withoutNull (p : PatchOp) : PatchOp := { p with value := p.value.filter fun v => !v.isNull }

/-- No object in the value of the operation names a key twice. -/
def Distinct (p : PatchOp) : Prop := p.value.all Json.distinct = true

instance (p : PatchOp) : Decidable p.Distinct := inferInstanceAs (Decidable (_ = true))

theorem option_json {v : Json} (origin : Origin) (distinct : v.distinct = true) :
    option json origin (.ofJson v) = .ok ((some v).filter fun v => !v.isNull) := by
  have read : json origin (.ofJson v) = .ok v := by
    rw [json, Source.toJson_ofJson v distinct]
    rfl
  cases v with
  | null => rfl
  | _ =>
      rw [Source.ofJson] at read ⊢
      rw [option, read]
      · rfl
      · nofun

/-- An operation is read as it was written, but for a value of null. -/
theorem decode_encode (distinct : p.Distinct) (origin : Origin) :
    decode origin (.ofJson p.encode) = .ok p.withoutNull := by
  obtain ⟨op, path, value, source⟩ := p
  rw [encode, Source.ofJson, decode, struct, List.append_assoc, List.cons_append, List.cons_append,
    Source.ofFields, Source.ofFields, structEntries_cons _ _ rfl rfl rfl, structEntries_cons _ _ rfl rfl rfl]
  cases value with
  | none =>
      cases source with
      | none => rfl
      | some source =>
          simp only [optionalKey, Option.map_some, List.nil_append, Source.ofFields]
          rw [structEntries_cons _ _ rfl rfl rfl]
          rfl
  | some v =>
      have read (d : Draft) : (option json origin (.ofJson v)).map (fun x => { d with value := x }) =
          .ok { d with value := (some v).filter fun v => !v.isNull } := by
        rw [option_json origin distinct]
        rfl
      cases source with
      | none =>
          simp only [optionalKey, Option.map_none, List.append_nil, List.nil_append, Source.ofFields]
          rw [structEntries_cons _ _ rfl rfl (read _)]
          rfl
      | some source =>
          simp only [optionalKey, Option.map_some, List.cons_append, List.nil_append, Source.ofFields]
          rw [structEntries_cons _ _ rfl rfl (read _), structEntries_cons _ _ rfl rfl rfl]
          rfl

theorem withoutNull_eq_self_iff : p.withoutNull = p ↔ p.value ≠ some .null := by
  obtain ⟨op, path, value, source⟩ := p
  cases value with
  | none => simp [withoutNull]
  | some v => cases v <;> simp [withoutNull, Json.isNull]

theorem encode_injective : Function.Injective encode := by
  rintro ⟨op, path, value, source⟩ ⟨op', path', value', source'⟩ same
  cases value <;> cases value' <;> cases source <;> cases source' <;> simp_all [encode, optionalKey]

theorem encodeAll_injective : Function.Injective encodeAll := by
  intro ps qs same
  exact encode_injective.list_map (Json.array.inj same)

theorem map_withoutNull_iff : ps.map withoutNull = ps ↔ ∀ p ∈ ps, p.value ≠ some .null := by
  have each : ps.map withoutNull = ps.map id ↔ ∀ p ∈ ps, p.withoutNull = p := List.map_inj_left
  rw [List.map_id] at each
  exact each.trans (forall₂_congr fun _ _ => withoutNull_eq_self_iff)

theorem decode_encodeAll (distinct : ∀ p ∈ ps, p.Distinct) :
    (list decode).ofJson (encodeAll ps) = .ok (ps.map withoutNull) :=
  list_ofJson fun p member => decode_encode (distinct p member) .value

/-- **A patch is read back as it was written, but for values of null.** A patch that is written as one JSON value
is always read again, with no value where there was null. So it is the same patch, and is written in the same
way once more, exactly when no operation has the value null. -/
theorem patches_read_back (distinct : ∀ p ∈ ps, p.Distinct) :
    (list decode).ofJson (encodeAll ps) = .ok (ps.map withoutNull) ∧
      ((list decode).ofJson (encodeAll ps) = .ok ps ↔ ∀ p ∈ ps, p.value ≠ some .null) ∧
      (encodeAll (ps.map withoutNull) = encodeAll ps ↔ ∀ p ∈ ps, p.value ≠ some .null) := by
  have read := decode_encodeAll distinct
  refine ⟨read, ?_, ?_⟩
  · rw [read, Except.ok.injEq, map_withoutNull_iff]
  · rw [encodeAll_injective.eq_iff, map_withoutNull_iff]

/-- A patch of all kinds of operations. -/
def cleanUp : List PatchOp :=
  [.add "/tags/0" (.object [("value", .null)]), .remove "/age", .replace "/name" (.string ""),
    .change "/bio" (.array []), .copy "/a~1b" "/c", .move "/c" "/d", .test "/d" (.bool false)]

/-- Null inside a value is kept. -/
theorem patches_read_back_cleanUp :
    (∀ p ∈ cleanUp, p.Distinct) ∧ (∀ p ∈ cleanUp, p.value ≠ some .null) ∧
      (list decode).ofJson (encodeAll cleanUp) = .ok cleanUp := by
  have distinct : ∀ p ∈ cleanUp, p.Distinct := by decide
  have valued : ∀ p ∈ cleanUp, p.value ≠ some .null := by
    simp [cleanUp, add, remove, replace, change, copy, move, test]
  exact ⟨distinct, valued, (patches_read_back distinct).2.1.mpr valued⟩

/-- To set a field to null is read as an operation without a value, which is written without the key. -/
theorem added_null_without_value :
    (list decode).ofJson (encodeAll [.add "/nick" .null]) = .ok [⟨"add", "/nick", none, none⟩] ∧
      add "/nick" .null ≠ ⟨"add", "/nick", none, none⟩ ∧
      encodeAll [.add "/nick" .null] =
        .array [.object [("op", .string "add"), ("path", .string "/nick"), ("value", .null)]] ∧
      encodeAll [⟨"add", "/nick", none, none⟩] =
        .array [.object [("op", .string "add"), ("path", .string "/nick")]] :=
  ⟨rfl, by simp [add], rfl, rfl⟩

end GraphQuery.PatchOp
