import GraphQuery.Descriptor.Check
import GraphQuery.Proofs.Text.NameReading

/-!
# What a reference refers to

A record reference in a text has its table in front of the first colon, since a bare word holds none, and
one in an object has it under `tb`. `RecordRef.RefersTo` says so without reading anything, and checking a
value against a link to a table decides it.
-/

namespace GraphQuery

namespace RecordRef

open Name

variable {table : String} {v : Json} {ref : RecordRef}

/-- The value is a reference to a record of the table: a text of the table, a colon and an id, or an
object of the table and an id. -/
inductive RefersTo (table : String) : Json → Prop
  | text (id : String) : isBareWord table.toList = true → id ≠ "" → '\n' ∉ id.toList →
      RefersTo table (.string (table ++ ":" ++ id))
  | object {fields : List (String × Json)} {id : Json} :
      fields.lookup "tb" = some (.string table) → fields.lookup "id" = some id →
      RefersTo table (.object fields)

/-- A colon ends a word. -/
theorem delimited_colon (id : List Char) : Reading.Delimited (':' :: id) := by
  intro c first
  cases first
  decide

theorem toList_reference (table id : String) :
    (table ++ ":" ++ id).toList = table.toList ++ ':' :: id.toList := by
  rw [String.toList_append, String.toList_append, List.append_assoc]
  rfl

/-- A text is a reference when it is a bare word, a colon and an id without line feeds. -/
theorem parseChars_eq_some_iff {cs : List Char} :
    parseChars cs = some ref ↔
      ∃ id, cs = ref.table.toList ++ ':' :: id ∧ isBareWord ref.table.toList = true ∧ id ≠ [] ∧
        '\n' ∉ id ∧ ref.id = idOfText id := by
  constructor
  · intro read
    have whole := List.takeWhile_append_dropWhile (p := isWordChar) (l := cs)
    unfold parseChars at read
    split at read
    · next id behind =>
        dsimp only at read
        split at read
        · next valid =>
            cases read
            rw [behind] at whole
            refine ⟨id, ?_, ?_, valid.2.1, valid.2.2, rfl⟩
            · rw [String.toList_ofList, whole]
            · rw [String.toList_ofList]
              exact valid.1
        · cases read
    · cases read
  · rintro ⟨id, rfl, bare, nonempty, oneLine, same⟩
    have word := isWordChar_of_isBareWord bare
    have colon := delimited_colon id
    have valid : isBareWord ref.table.toList = true ∧ id ≠ [] ∧ '\n' ∉ id :=
      ⟨bare, nonempty, oneLine⟩
    simp only [parseChars, takeWhile_word word colon, dropWhile_word word colon, if_pos valid,
      String.ofList_toList, ← same]

/-- The reference in an object. -/
def toJson (ref : RecordRef) : Json := .object [("tb", .string ref.table), ("id", ref.id)]

/-- Every record has a reference, whatever its table is called and whatever its id is. -/
theorem ofJson?_toJson (ref : RecordRef) : ofJson? ref.toJson = some ref := rfl

/-- A value that is read as a reference refers to the table that is read. -/
theorem exists_ofJson?_iff :
    (∃ ref, ofJson? v = some ref ∧ ref.table = table) ↔ RefersTo table v := by
  constructor
  · rintro ⟨ref, read, rfl⟩
    cases v with
    | string s =>
        obtain ⟨id, chars, bare, nonempty, oneLine, _⟩ := parseChars_eq_some_iff.mp read
        have text : s = ref.table ++ ":" ++ String.ofList id := by
          rw [← String.toList_inj, chars, toList_reference, String.toList_ofList]
        rw [text]
        refine .text _ bare ?_ ?_
        · simpa [← String.toList_inj] using nonempty
        · rwa [String.toList_ofList]
    | object fields =>
        obtain ⟨table, named, read⟩ := Option.bind_eq_some_iff.mp read
        obtain ⟨id, there, read⟩ := Option.bind_eq_some_iff.mp read
        obtain ⟨written, under, named⟩ := Option.bind_eq_some_iff.mp named
        cases read
        cases written with
        | string s =>
            cases named
            exact .object under there
        | _ => cases named
    | _ => cases read
  · intro refers
    cases refers with
    | text id bare nonempty oneLine =>
        refine ⟨⟨table, idOfText id.toList⟩, ?_, rfl⟩
        show parseChars (table ++ ":" ++ id).toList = _
        have some : id.toList ≠ [] := by simpa using nonempty
        exact parseChars_eq_some_iff.mpr
          ⟨id.toList, toList_reference table id, bare, some, oneLine, rfl⟩
    | @object fields id under there =>
        refine ⟨⟨table, id⟩, ?_, rfl⟩
        rw [ofJson?, under, there]
        rfl

end RecordRef

/-- Checking against a link to a table decides whether a value refers to it. -/
theorem Descriptor.acceptsRecord_iff {table : String} {v : Json} :
    acceptsRecord (some table) v = true ↔ RecordRef.RefersTo table v := by
  rw [← RecordRef.exists_ofJson?_iff]
  unfold acceptsRecord
  cases RecordRef.ofJson? v with
  | none => simp
  | some ref => simp

end GraphQuery
