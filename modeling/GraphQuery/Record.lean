import GraphQuery.Json.Basic
import GraphQuery.Text.Name

/-!
# Record references

A record is addressed by its table and its id, written `table:id` or as an object with the keys `tb`
and `id`. In the text form an id of digits alone is a number if it fits 64 bits.
-/

namespace GraphQuery

/-- The address of one record. -/
structure RecordRef where
  table : String
  id : Json

namespace RecordRef

/-- The largest numeric id is below this bound. -/
def idBound : Nat := Nat.pow 2 64

/-- The id that the text behind the colon spells. -/
def idOfText (cs : List Char) : Json :=
  let n := cs.foldl (fun n c => 10 * n + (c.toNat - '0'.toNat)) 0
  if cs.all Char.isDigit ∧ n < idBound then Json.int n else .string (String.ofList cs)

/-- The characters of the text form: a bare word, a colon, and an id that is not empty and has no
line feed. -/
def parseChars (cs : List Char) : Option RecordRef :=
  let table := cs.takeWhile Name.isWordChar
  match cs.dropWhile Name.isWordChar with
  | ':' :: id =>
    if Name.isBareWord table ∧ id ≠ [] ∧ '\n' ∉ id then
      some ⟨String.ofList table, idOfText id⟩
    else none
  | _ => none

/-- Read the text form. -/
def parse (s : String) : Option RecordRef := parseChars s.toList

/-- Read either form. -/
def ofJson? : Json → Option RecordRef
  | .string s => parse s
  | .object fields => do
    let table ← (fields.lookup "tb").bind Json.string?
    let id ← fields.lookup "id"
    return ⟨table, id⟩
  | _ => none

end RecordRef

end GraphQuery
