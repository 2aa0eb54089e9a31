import GraphQuery.Statement.Slot
import Mathlib.Data.List.Forall2

/-!
# The data of an insertion

An insertion starts with no data and takes rows for a list of fields or documents, never both. `Sound`
is what has been checked of the data, `Continues` how data may go on, and `Written` what one call that
succeeds does to them.
-/

namespace GraphQuery

/-- The row that a call adds to an insertion. -/
def Call.row? : Call → Option (List Json)
  | values row => some row
  | _ => none

namespace InsertData

/-- The rows that are there. -/
def lines : InsertData → List (List Json)
  | rows _ lines => lines
  | _ => []

/-- A row has a value for each field, and each value has the shape of its field. -/
structure Fits (input : Descriptor) (names : List String) (row : List Json) : Prop where
  arity : row.length = names.length
  checked : ∀ name v, (name, v) ∈ names.zip row → Document.checkAssignment input name v = .ok ()

/-- All rows fit the fields, or all documents have the shape of the table's documents. -/
def Sound (input : Descriptor) : InsertData → Prop
  | empty => True
  | rows names lines => ∀ row ∈ lines, Fits input names row
  | documents all => ∀ document ∈ all, input.validate document = true

/-- What data may become later: rows stay rows and documents stay documents, those that are there stay
in front, and with a row the fields stay. -/
inductive Continues : InsertData → InsertData → Prop
  | empty (later : InsertData) : Continues empty later
  | fields (before after : List String) (lines : List (List Json)) :
      Continues (rows before []) (rows after lines)
  | rows (names : List String) (lines more : List (List Json)) :
      Continues (rows names lines) (rows names (lines ++ more))
  | documents (before more : List Json) :
      Continues (documents before) (documents (before ++ more))

/-- What a call that succeeds does to the data. -/
inductive Written (input : Descriptor) : InsertData → Call → InsertData → Prop
  /-- The first fields, or others as long as there is no row. -/
  | fields {data : InsertData} (names : List String) :
      (data = .empty ∨ ∃ before, data = .rows before []) →
      Written input data (.fields names) (.rows names [])
  | values {names : List String} {lines : List (List Json)} {row : List Json} :
      Fits input names row →
      Written input (.rows names lines) (.values row) (.rows names (lines ++ [row]))
  /-- The first documents, or more of them; each is restricted to what is declared. -/
  | content {data : InsertData} {before parsed : List Json} (document : Json) :
      (data = .empty ∧ before = [] ∨ data = .documents before) →
      List.Forall₂ (fun d p => input.parse d = .ok p) (Insert.documentsOf document) parsed →
      Written input data (.content document) (.documents (before ++ parsed))
  /-- Other calls leave the data as they are. -/
  | other {data : InsertData} {c : Call} : c.slot ≠ .body → Written input data c data

end InsertData

namespace Insert

/-- A call on an insertion as a step of a run. -/
def step (i : Insert) (c : Call) : Except (Option QueryError) Insert := Run.offered (i.call c)

end Insert

end GraphQuery
