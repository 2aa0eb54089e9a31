import GraphQuery.Proofs.Descriptor.Union
import GraphQuery.Proofs.Outcome
import GraphQuery.Proofs.Record

/-!
# The table that a descriptor points at

`Descriptor.recordTable` names a table only when every way of having the shape, null aside, is a link to
that table or an array of such links. So it is never the wrong table: whatever has the shape holds, once
all arrays are opened, nothing but null and references to records of that table.
-/

namespace GraphQuery

namespace Json

mutual

/-- What stands in a value when all arrays are opened. -/
def leaves : Json → List Json
  | array items => leavesEach items
  | v => [v]

def leavesEach : List Json → List Json
  | [] => []
  | v :: rest => leaves v ++ leavesEach rest

end

theorem mem_leavesEach {items : List Json} {leaf : Json} :
    leaf ∈ leavesEach items ↔ ∃ v ∈ items, leaf ∈ v.leaves := by
  induction items with
  | nil => simp [leavesEach]
  | cons v rest ih => simp [leavesEach, ih]

/-- A reference is no array. -/
theorem leaves_of_refersTo {table : String} {v : Json} (refers : RecordRef.RefersTo table v) :
    v.leaves = [v] := by
  cases refers with
  | text => rfl
  | object => rfl

end Json

namespace Descriptor

open Outcome

variable {t : Descriptor} {table : String} {v : Json}

/-- Absence and null are the alternatives that point nowhere and are left aside. -/
def pointsNowhere (t : Descriptor) : Bool := t.isAbsent || t.isNull

theorem recordTables_eq (alts : List Descriptor) :
    recordTables alts = (alts.filter fun t => !t.pointsNowhere).map recordTable := by
  induction alts with
  | nil => rfl
  | cons t rest ih =>
      rw [recordTables, List.filter_cons, ih]
      show (if t.pointsNowhere = true then _ else _) = _
      cases t.pointsNowhere with
      | true => rfl
      | false => rfl

theorem recordTable_union (alts : List Descriptor) :
    (union alts).recordTable = agreed ((alts.filter fun t => !t.pointsNowhere).map recordTable) := by
  rw [recordTable, ← recordTables_eq]
  cases recordTables alts with
  | nil => rfl
  | cons first rest => rfl

/-- All alternatives that count point at the table that the union points at. -/
theorem recordTable_of_mem {alts : List Descriptor} (points : (union alts).recordTable = some table)
    (member : t ∈ alts) (counts : t.pointsNowhere = false) : t.recordTable = some table := by
  rw [recordTable_union, agreed_eq_some_iff] at points
  have counted : t ∈ alts.filter fun t => !t.pointsNowhere := by simp [member, counts]
  exact points.2 _ (List.mem_map_of_mem counted)

/-- What has the shape of an alternative that points nowhere is null, since it is there. -/
theorem eq_null_of_pointsNowhere (aside : t.pointsNowhere = true) (accepted : t.validate v = true) :
    v = .null := by
  cases t with
  | absent => cases accepted
  | null =>
      cases v with
      | null => rfl
      | _ => cases accepted
  | _ => cases aside

/-- **No wrong table.** Whatever has the shape of a descriptor that points at a table is made of null and
of references to records of that table alone, in arrays of any depth. -/
theorem leaves_of_recordTable (t : Descriptor) {table : String}
    (points : t.recordTable = some table) {v : Json} (accepted : t.validate v = true) :
    ∀ leaf ∈ v.leaves, leaf = .null ∨ RecordRef.RefersTo table leaf := by
  cases t with
  | record link =>
      obtain rfl : link = some table := points
      have refers : RecordRef.RefersTo table v := acceptsRecord_iff.mp accepted
      rw [Json.leaves_of_refersTo refers]
      intro leaf member
      cases List.mem_singleton.mp member
      exact .inr refers
  | option inner => exact leaves_of_recordTable inner points accepted
  | list item =>
      cases v with
      | array items =>
          rw [validate, check, List.all_eq_true] at accepted
          rw [Json.leaves]
          intro leaf inside
          obtain ⟨v, member, inside⟩ := Json.mem_leavesEach.mp inside
          exact leaves_of_recordTable item points (accepted v member) leaf inside
      | _ => cases accepted
  | union alts =>
      obtain ⟨t, member, accepted⟩ := checkAny_iff.mp accepted
      cases aside : t.pointsNowhere with
      | true =>
          rw [eq_null_of_pointsNowhere aside accepted]
          intro leaf inside
          exact .inl (List.mem_singleton.mp inside)
      | false => exact leaves_of_recordTable t (recordTable_of_mem points member aside) accepted
  | _ => cases points
termination_by sizeOf t

namespace Followers

/-- Users, users in groups, and gaps. -/
def shape : Descriptor :=
  .option (.list (.union [.absent, .record (some "user"), .null, .list (.option (.record (some "user")))]))

/-- A user as a text, a gap, and a group of a user as an object. -/
def value : Json :=
  .array [.string "user:1", .null, .array [.object [("tb", .string "user"), ("id", .int 7)]]]

end Followers

/-- The followers are users. -/
theorem leaves_of_recordTable_followers :
    Followers.shape.recordTable = some "user" ∧ Followers.shape.validate Followers.value = true ∧
      Followers.value.leaves = [.string "user:1", .null,
        .object [("tb", .string "user"), ("id", .int 7)]] ∧
      ∀ leaf ∈ Followers.value.leaves, leaf = .null ∨ RecordRef.RefersTo "user" leaf := by
  have points : Followers.shape.recordTable = some "user" := rfl
  have accepted : Followers.shape.validate Followers.value = true := by decide
  exact ⟨points, accepted, rfl, leaves_of_recordTable Followers.shape points accepted⟩

end Descriptor

end GraphQuery
