import GraphQuery.Proofs.Outcome
import GraphQuery.Statement.Insert

/-!
# Insertions that were accepted

What a call on an insertion that succeeds has found, and what it leaves: all but the data, or all but
the assignments to records that are there already, stays as it was.
-/

namespace GraphQuery.Insert

open Outcome

variable {i i' : Insert}

/-- Fields can be declared as long as there are neither rows nor documents. -/
theorem eq_of_fields {names : List String} (declared : i.fields names = .ok i') :
    (i.data = .empty ∨ ∃ before, i.data = .rows before []) ∧
      i' = { i with data := .rows names [] } := by
  unfold fields at declared
  split at declared
  · cases declared
  · cases declared
  · next notDocuments noRows =>
      cases declared
      refine ⟨?_, rfl⟩
      cases data : i.data with
      | empty => exact .inl rfl
      | rows before rows =>
          cases rows with
          | nil => exact .inr ⟨before, rfl⟩
          | cons row rest => exact absurd data (noRows before row rest)
      | documents documents => exact absurd data (notDocuments documents)

/-- A row has a value for each field, and it is added behind the rows that are there. -/
theorem eq_of_values {row : List Json} (added : i.values row = .ok i') :
    ∃ names rows, i.data = .rows names rows ∧ row.length = names.length ∧
      checkRow i.input names row = .ok () ∧ i' = { i with data := .rows names (rows ++ [row]) } := by
  unfold values at added
  split at added
  · next names rows data =>
      split at added
      · next arity =>
          split at added
          · cases added
          · next checked =>
              cases added
              exact ⟨names, rows, data, arity, checked, rfl⟩
      · cases added
  · cases added

/-- Documents are added behind those that are there. -/
theorem eq_of_content {document : Json} (written : i.content document = .ok i') :
    ∃ parsed, (documentsOf document).mapM i.input.parse = .ok parsed ∧
      (i.data = .empty ∧ i' = { i with data := .documents parsed } ∨
        ∃ existing, i.data = .documents existing ∧
          i' = { i with data := .documents (existing ++ parsed) }) := by
  unfold content at written
  split at written
  · cases written
  · next noRows =>
      split at written
      · cases written
      · next parsed parses =>
          refine ⟨parsed, parses, ?_⟩
          split at written
          · next existing data =>
              cases written
              exact .inr ⟨existing, data, rfl⟩
          · next noDocuments =>
              cases written
              cases data : i.data with
              | empty => exact .inl ⟨rfl, rfl⟩
              | rows names rows => exact absurd data (noRows names rows)
              | documents documents => exact absurd data (noDocuments documents)

theorem documents_of_content {document : Json} (written : i.content document = .ok i') :
    ∃ documents, i' = { i with data := .documents documents } := by
  obtain ⟨parsed, _, ⟨_, rfl⟩ | ⟨existing, _, rfl⟩⟩ := eq_of_content written
  · exact ⟨parsed, rfl⟩
  · exact ⟨existing ++ parsed, rfl⟩

theorem eq_of_onDuplicateSet {field : String} {value : Operand}
    (assigned : i.onDuplicateSet field value = .ok i') :
    i' = { i with onDuplicate := i.onDuplicate ++ [⟨field, .assign, value.lift i.scope⟩] } := by
  unfold onDuplicateSet at assigned
  cases value with
  | expr e =>
      cases assigned
      rfl
  | value v =>
      obtain ⟨_, _, made⟩ := bind_eq_ok.mp assigned
      cases made
      rfl

end GraphQuery.Insert
