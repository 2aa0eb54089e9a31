import GraphQuery.Proofs.Record
import GraphQuery.Text.Digits

/-!
# References are read back

The text of a reference is a bare word, a colon and an id. The word ends at the first colon, whatever the
id holds, and an id of digits that fit 64 bits is a number. So every table whose name is a bare word and
every id that is such a number, or a text that does not look like one, are read back from their text.
-/

namespace GraphQuery.RecordRef

open Name Text

/-- The id is written with decimal digits only, and the number fits 64 bits. -/
def IsNumeric (id : String) : Prop :=
  (∀ c ∈ id.toList, c.isDigit = true) ∧ spelled id.toList < 2 ^ 64

instance (id : String) : Decidable (IsNumeric id) :=
  decidable_of_iff (id.toList.all Char.isDigit = true ∧ spelled id.toList < 2 ^ 64)
    (and_congr_left' List.all_eq_true)

theorem idOfText_toList (id : String) :
    idOfText id.toList = if IsNumeric id then .int (spelled id.toList) else .string id := by
  have added : id.toList.foldl (fun n c => 10 * n + (c.toNat - '0'.toNat)) 0 = spelled id.toList :=
    ofDigitChars_eq_spelled id.toList
  have numeric : (id.toList.all Char.isDigit = true ∧ spelled id.toList < idBound) ↔ IsNumeric id := by
    rw [List.all_eq_true]
    rfl
  rw [idOfText, added, String.ofList_toList]
  exact if_congr numeric rfl rfl

theorem isNumeric_toString {n : Nat} (small : n < 2 ^ 64) : IsNumeric (toString n) := by
  rw [IsNumeric, toList_toString, spelled_toDigits]
  exact ⟨fun _ member => Nat.isDigit_of_mem_toDigits (by decide) (by decide) member, small⟩

/-- A text is a reference when it is a bare word, a colon and an id without line feeds. -/
theorem parse_eq_some_iff {s : String} {ref : RecordRef} :
    parse s = some ref ↔
      ∃ id, s = ref.table ++ ":" ++ id ∧ isBareWord ref.table.toList = true ∧ id ≠ "" ∧
        '\n' ∉ id.toList ∧ ref.id = if IsNumeric id then .int (spelled id.toList) else .string id := by
  rw [parse, parseChars_eq_some_iff]
  constructor
  · rintro ⟨id, chars, bare, nonempty, oneLine, same⟩
    rw [← String.toList_ofList (l := id)] at oneLine same
    rw [idOfText_toList] at same
    refine ⟨String.ofList id, ?_, bare, ?_, oneLine, same⟩
    · rw [← String.toList_inj, chars, toList_reference, String.toList_ofList]
    · simpa [← String.toList_inj] using nonempty
  · rintro ⟨id, rfl, bare, nonempty, oneLine, same⟩
    rw [← idOfText_toList] at same
    refine ⟨id.toList, toList_reference ref.table id, bare, ?_, oneLine, same⟩
    simpa using nonempty

/-- A bare word holds no colon. -/
theorem takeWhile_colon {table : String} (bare : isBareWord table.toList = true) (id : String) :
    (table ++ ":" ++ id).toList.takeWhile (· != ':') = table.toList := by
  have noColon : ∀ c ∈ table.toList, (c != ':') = true := by
    intro c member
    have word := isWordChar_of_isBareWord bare c member
    rw [bne_iff_ne]
    rintro rfl
    exact absurd word (by decide)
  rw [toList_reference, List.takeWhile_append_of_pos noColon]
  simp

/-- **What the text of a reference is, and what it says.** A text is read exactly when it is a bare word, a
colon and an id that is not empty and has no line feed. The table is what stands in front of the first
colon; the id is a number if its text is one, and that text otherwise. So the text of a table and an id is
read as this table and this id, for every number that fits 64 bits and every text that is no such number. -/
theorem references_read_back :
    (∀ (s : String) (ref : RecordRef), parse s = some ref ↔
      ∃ id, s = ref.table ++ ":" ++ id ∧ isBareWord ref.table.toList = true ∧ id ≠ "" ∧
        '\n' ∉ id.toList ∧ ref.id = if IsNumeric id then .int (spelled id.toList) else .string id) ∧
    (∀ (s : String) (ref : RecordRef), parse s = some ref →
      ref.table.toList = s.toList.takeWhile (· != ':')) ∧
    ∀ table : String, isBareWord table.toList = true →
      (∀ n : Nat, n < 2 ^ 64 → parse (table ++ ":" ++ toString n) = some ⟨table, .int n⟩) ∧
      ∀ id, id ≠ "" → '\n' ∉ id.toList → ¬ IsNumeric id →
        parse (table ++ ":" ++ id) = some ⟨table, .string id⟩ := by
  refine ⟨fun s ref => parse_eq_some_iff, ?_, ?_⟩
  · intro s ref read
    obtain ⟨id, rfl, bare, _⟩ := parse_eq_some_iff.mp read
    exact (takeWhile_colon bare id).symm
  · intro table bare
    refine ⟨?_, ?_⟩
    · intro n small
      have numeric := isNumeric_toString small
      refine parse_eq_some_iff.mpr ⟨toString n, rfl, bare, ?_, ?_, ?_⟩
      · rw [Ne, ← String.toList_inj, toList_toString]
        exact Nat.toDigits_ne_nil
      · intro lineFeed
        exact absurd (numeric.1 _ lineFeed) (by decide)
      · rw [if_pos numeric, toList_toString, spelled_toDigits]
    · intro id nonempty oneLine text
      refine parse_eq_some_iff.mpr ⟨id, rfl, bare, nonempty, oneLine, ?_⟩
      rw [if_neg text]

/-- The largest number, a text of one more than it, and a number with zeros in front behind a second colon. -/
theorem references_read_back_user :
    isBareWord "user".toList = true ∧
      parse ("user" ++ ":" ++ toString (2 ^ 64 - 1)) = some ⟨"user", .int (2 ^ 64 - 1 : Nat)⟩ ∧
      ¬ IsNumeric "18446744073709551616" ∧
      parse ("user" ++ ":" ++ "18446744073709551616") = some ⟨"user", .string "18446744073709551616"⟩ ∧
      parse "user:007" = some ⟨"user", .int 7⟩ ∧
      "user".toList = "user:007".toList.takeWhile (· != ':') := by
  have bare : isBareWord "user".toList = true := by decide
  have large : ¬ IsNumeric "18446744073709551616" := by decide +kernel
  have small : IsNumeric "007" := by decide +kernel
  obtain ⟨texts, tables, ids⟩ := references_read_back
  obtain ⟨numbers, others⟩ := ids "user" bare
  have padded : parse "user:007" = some ⟨"user", .int 7⟩ :=
    (texts _ _).mpr ⟨"007", by decide, bare, by decide, by decide, (if_pos small).symm⟩
  exact ⟨bare, numbers (2 ^ 64 - 1) (by decide), large, others _ (by decide) (by decide) large, padded,
    tables _ _ padded⟩

end GraphQuery.RecordRef
