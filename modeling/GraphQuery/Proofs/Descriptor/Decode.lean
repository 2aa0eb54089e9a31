import GraphQuery.Descriptor.Decode
import GraphQuery.Descriptor.Occurrence
import GraphQuery.Proofs.Fields.Lookup
import GraphQuery.Proofs.Outcome

/-!
# What is decoded names no field twice

The fields of an object are inserted one after the other, so a name that comes again takes the place
that it has. Every descriptor that is read is `Distinct`, wherever it is read from.
-/

namespace GraphQuery.Descriptor

theorem Distinct.object {fields : List (String × Descriptor)}
    (dictionary : Fields.DictionaryOf Distinct fields) : (object fields).Distinct := by
  intro fields part
  cases part with
  | self => exact dictionary.1
  | field member part => exact dictionary.2 _ _ member fields part

namespace Decode

open Outcome

/-- A kind without parts holds no object. -/
theorem distinct_of_withoutParts {k : Kind} {t : Descriptor} (done : withoutParts k = .ok t) :
    t.Distinct := by
  intro fields part
  cases k <;> cases done <;> cases part

theorem eq_of_unitParts {variant : String} {t u : Descriptor} {s : Source}
    (done : unitParts variant t s = .ok u) : u = t := by
  unfold unitParts at done
  split at done
  · cases done
    rfl
  · cases done
  · cases done
  · unfold GraphQuery.Decode.unexpected at done
    split at done <;> cases done

theorem literal_of_literalParts {s : Source} {t : Descriptor} (done : literalParts s = .ok t) :
    ∃ l, t = literal l := by
  obtain ⟨_, _, done⟩ := bind_eq_ok.mp done
  split at done
  · cases done
    exact ⟨_, rfl⟩
  · split at done
    · cases done
      exact ⟨_, rfl⟩
    · cases done
  · cases done
    exact ⟨_, rfl⟩
  · cases done

/-- The parts of a kind, however they are read, are distinct when they are read at all. -/
structure Parts.Distinct (parts : Parts) : Prop where
  one : ∀ {origin t}, parts.one origin = .ok t → t.Distinct
  items : ∀ {origin ts}, parts.items origin = .ok ts → ∀ t ∈ ts, t.Distinct
  fields : ∀ {origin fields}, parts.fields origin = .ok fields →
    Fields.DictionaryOf Descriptor.Distinct fields

theorem Parts.Distinct.array {parts : Parts} (distinct : parts.Distinct) {s : Source}
    {t : Descriptor} (done : arrayParts parts s = .ok t) : t.Distinct := by
  obtain ⟨_, _, done⟩ := bind_eq_ok.mp done
  split at done
  · next items =>
      cases done
      exact .tuple (distinct.items items)
  · split at done
    · next item =>
        cases done
        exact .list (distinct.one item)
    · cases done

theorem Parts.Distinct.withParts {parts : Parts} (distinct : parts.Distinct) {origin : Origin}
    {k : Kind} {s : Source} {t : Descriptor} (done : withParts origin k s parts = .ok t) :
    t.Distinct := by
  cases k with
  | option =>
      obtain ⟨inner, read, rfl⟩ := map_eq_ok.mp done
      exact .option (distinct.one read)
  | record =>
      obtain ⟨table, _, rfl⟩ := map_eq_ok.mp done
      intro fields part
      cases part
  | object =>
      obtain ⟨fields, read, rfl⟩ := map_eq_ok.mp done
      exact .object (distinct.fields read)
  | array => exact distinct.array done
  | union =>
      obtain ⟨alts, read, rfl⟩ := map_eq_ok.mp done
      exact .union (distinct.items read)
  | literal =>
      obtain ⟨l, rfl⟩ := literal_of_literalParts done
      intro fields part
      cases part
  | _ =>
      cases eq_of_unitParts done
      intro fields part
      cases part

theorem distinct_of_thenRest {close : ObjectEnd} {r : Except DecodeError Descriptor}
    {rest : List (SourceEntry Source)} {t : Descriptor} (done : thenRest close r rest = .ok t)
    (distinct : ∀ t, r = .ok t → t.Distinct) : t.Distinct := by
  obtain ⟨u, read, done⟩ := bind_eq_ok.mp done
  obtain ⟨_, _, done⟩ := bind_eq_ok.mp done
  cases done
  exact distinct _ read

mutual

/-- What is decoded is distinct. The induction is on the source: the ways to read a part are taken
together, as its parts are, and come before the source that it is a part of. -/
theorem distinct_of_decode (s : Source) {origin : Origin} {t : Descriptor}
    (done : decode origin s = .ok t) : t.Distinct := by
  match s with
  | .object entries close =>
      rw [decode] at done
      exact distinct_of_fromEntries entries done
  | .array [] close =>
      rw [decode] at done
      obtain ⟨_, _, done⟩ := bind_eq_ok.mp done
      cases done
  | .array [first] close =>
      rw [decode] at done
      obtain ⟨_, _, done⟩ := bind_eq_ok.mp done
      obtain ⟨_, _, done⟩ := bind_eq_ok.mp done
      cases done
  | .array (first :: second :: rest) close =>
      rw [decode] at done
      obtain ⟨k, _, done⟩ := bind_eq_ok.mp done
      obtain ⟨u, read, done⟩ := bind_eq_ok.mp done
      obtain ⟨_, _, done⟩ := bind_eq_ok.mp done
      cases done
      exact (distinct_parts second).withParts (mapError_eq_ok.mp read)
  | .fault _ | .null | .bool _ | .number _ | .string _ =>
      rw [decode] at done
      · cases done
      all_goals simp
termination_by (sizeOf s, 0)

theorem distinct_parts (s : Source) :
    (Parts.mk (fun o => decode o s) (fun o => decodeList o s) fun o => decodeObject o s).Distinct :=
  ⟨distinct_of_decode s, distinct_of_decodeList s, distinct_of_decodeObject s⟩
termination_by (sizeOf s, 1)

theorem distinct_of_fromEntries (entries : List (SourceEntry Source)) {origin : Origin}
    {close : ObjectEnd} {t : Descriptor} (done : fromEntries origin close entries = .ok t) :
    t.Distinct := by
  match entries with
  | [] =>
      rw [fromEntries.eq_def] at done
      dsimp only at done
      split at done
      · cases done
      · obtain ⟨_, _, done⟩ := bind_eq_ok.mp done
        cases done
  | ⟨key, part, passedOver⟩ :: rest =>
      rw [fromEntries] at done
      split at done
      · split at done
        · cases done
        · exact distinct_of_ofKind rest done
      · split at done
        · split at done
          · cases done
          · split at done
            · cases done
            · refine distinct_of_thenRest done ?_
              intro t read
              exact (distinct_parts part).withParts (mapError_eq_ok.mp read)
        · split at done
          · cases done
          · exact distinct_of_fromEntries rest done
termination_by (sizeOf entries, 0)

theorem distinct_of_ofKind (entries : List (SourceEntry Source)) {origin : Origin}
    {close : ObjectEnd} {k : Kind} {t : Descriptor} (done : ofKind origin close k entries = .ok t) :
    t.Distinct := by
  match entries with
  | [] =>
      rw [ofKind.eq_def] at done
      dsimp only at done
      split at done
      · split at done <;> cases done
      · obtain ⟨_, _, done⟩ := bind_eq_ok.mp done
        exact distinct_of_withoutParts done
  | ⟨key, part, passedOver⟩ :: rest =>
      rw [ofKind] at done
      split at done
      · cases done
      · split at done
        · refine distinct_of_thenRest done ?_
          intro t read
          exact (distinct_parts part).withParts (mapError_eq_ok.mp read)
        · split at done
          · cases done
          · exact distinct_of_ofKind rest done
termination_by (sizeOf entries, 0)

theorem distinct_of_decodeList (s : Source) {origin : Origin} {ts : List Descriptor}
    (done : decodeList origin s = .ok ts) : ∀ t ∈ ts, t.Distinct := by
  match s with
  | .array items close =>
      rw [decodeList] at done
      obtain ⟨us, read, done⟩ := bind_eq_ok.mp done
      obtain ⟨_, _, done⟩ := bind_eq_ok.mp done
      cases done
      exact distinct_of_decodeItems items read
  | .object _ _ | .fault _ | .null | .bool _ | .number _ | .string _ =>
      rw [decodeList] at done
      · cases done
      all_goals simp
termination_by (sizeOf s, 0)

theorem distinct_of_decodeItems (items : List Source) {origin : Origin} {position : Nat}
    {ts : List Descriptor} (done : decodeItems origin position items = .ok ts) :
    ∀ t ∈ ts, t.Distinct := by
  match items with
  | [] =>
      rw [decodeItems] at done
      cases done
      simp
  | s :: rest =>
      rw [decodeItems] at done
      split at done
      · cases done
      · next read =>
          obtain ⟨us, others, rfl⟩ := map_eq_ok.mp done
          rw [List.forall_mem_cons]
          exact ⟨distinct_of_decode s read, distinct_of_decodeItems rest others⟩
termination_by (sizeOf items, 0)

theorem distinct_of_decodeObject (s : Source) {origin : Origin} {fields : List (String × Descriptor)}
    (done : decodeObject origin s = .ok fields) :
    Fields.DictionaryOf Descriptor.Distinct fields := by
  match s with
  | .object entries close =>
      rw [decodeObject] at done
      obtain ⟨read, all, done⟩ := bind_eq_ok.mp done
      obtain ⟨_, _, done⟩ := bind_eq_ok.mp done
      cases done
      exact distinct_of_decodeFields entries .nil all
  | .array _ _ | .fault _ | .null | .bool _ | .number _ | .string _ =>
      rw [decodeObject] at done
      · cases done
      all_goals simp
termination_by (sizeOf s, 0)

theorem distinct_of_decodeFields (entries : List (SourceEntry Source)) {origin : Origin}
    {before fields : List (String × Descriptor)}
    (dictionary : Fields.DictionaryOf Descriptor.Distinct before)
    (done : decodeFields origin before entries = .ok fields) :
    Fields.DictionaryOf Descriptor.Distinct fields := by
  match entries with
  | [] =>
      rw [decodeFields] at done
      cases done
      exact dictionary
  | ⟨key, part, passedOver⟩ :: rest =>
      rw [decodeFields] at done
      split at done
      · cases done
      · next read =>
          exact distinct_of_decodeFields rest
            (dictionary.insert key (distinct_of_decode part read)) done
termination_by (sizeOf entries, 0)

end

end Decode

end GraphQuery.Descriptor
