import GraphQuery.Proofs.Descriptor.Declared
import GraphQuery.Proofs.Query.Document
import GraphQuery.Statement.Undeclared

/-!
# Where nothing is declared

A raw value for a path that is not declared is not checked, as long as no list is met in front of one
of the names. A list stays a list when a field of it is looked up that its items do not have, and such
a list has no items that fit: from there on everything is refused but empty arrays.
-/

namespace GraphQuery

open Descriptor (InFront)

section

variable {row : Descriptor} {path : String}

/-- A path at which there is nothing is not checked by any call. -/
theorem Unchecked.of_atPath (nothing : row.atPath path = .absent) : Unchecked row path := by
  have assignment : ∀ v, Document.checkAssignment row path v = .ok () :=
    fun v => Document.checkAssignment_iff.mpr (.inl nothing)
  refine ⟨assignment, ?_, ?_, ?_⟩
  · intro slot scope v e refused
    have steps : slot.assign row scope path .assign (.value v) =
        (PayloadSlot.usage (slot.accepts .set)).bind fun _ =>
          (PayloadSlot.typed (Document.checkAssignment row path v)).bind fun _ =>
            PayloadSlot.usage (slot.push (.set [⟨path, .assign, .ofValue scope v⟩])) := rfl
    rw [steps, assignment v] at refused
    -- What is left are the two steps that ask for the clause alone.
    cases used : slot.accepts .set with
    | error conflict =>
        rw [used] at refused
        cases refused
    | ok _ =>
        rw [used] at refused
        change PayloadSlot.usage (slot.push _) = _ at refused
        cases added : slot.push (.set [⟨path, .assign, .ofValue scope v⟩]) <;>
          rw [added] at refused <;> cases refused
  · intro names v vs
    rw [Insert.checkRow, assignment]
  · intro i own v
    rw [Insert.onDuplicateSet, own, assignment]
    rfl

/-- **Undeclared paths.** A path with a name that no object declares is not checked unless a list, or
a union of nothing, is met in front of one of its names. Behind a list only empty arrays, and arrays of
such arrays, are accepted. -/
theorem undeclared_unchecked_until_list (distinct : row.Distinct)
    (undeclared : ¬ row.Declares (Name.parts path)) :
    ((∀ item, ¬ InFront (.list item) row (Name.parts path)) →
      ¬ InFront (.union []) row (Name.parts path) → Unchecked row path) ∧
    ((∃ item, InFront (.list item) row (Name.parts path)) →
      ∀ v, Document.checkAssignment row path v = .ok () → v.isHollow = true) := by
  refine ⟨?_, ?_⟩
  · intro noList noEmpty
    exact .of_atPath
      (Descriptor.atParts_eq_absent (Name.parts_ne_nil path) undeclared noList noEmpty)
  · rintro ⟨item, front, rest, split, _, met⟩ v accepted
    -- The list is still there at the end of the path, so something is.
    have declared : row.atPath path ≠ .absent := by
      intro nothing
      obtain ⟨other, list⟩ := Descriptor.meetsList_atParts distinct front ⟨item, met⟩ rest
      rw [← split] at list
      change Descriptor.Reachable _ (row.atPath path) at list
      rw [nothing] at list
      cases list
    have fits := (Document.checkAssignment_iff.mp accepted).resolve_left declared
    exact Descriptor.isHollow_of_check_atParts undeclared fits

end

namespace Note

/-- A note has an address, perhaps, and tags. -/
def row : Descriptor :=
  .object [("address", .option (.object [("city", .string)])), ("tags", .list .string)]

theorem parts_zip : Name.parts "address.zip" = ["address", "zip"] := by decide

theorem parts_color : Name.parts "tags.color" = ["tags", "color"] := by decide

theorem undeclared_zip : ¬ row.Declares (Name.parts "address.zip") := by
  rw [parts_zip]
  rintro ⟨s, met⟩
  obtain ⟨u, declared, met⟩ := met.of_object
  cases declared
  cases met with
  | field object declared _ =>
      cases object with
      | option object =>
          cases object
          cases declared

theorem undeclared_color : ¬ row.Declares (Name.parts "tags.color") := by
  rw [parts_color]
  rintro ⟨s, met⟩
  obtain ⟨u, declared, met⟩ := met.of_object
  cases declared
  cases met with
  | field object _ _ =>
      cases object with
      | item object => cases object

/-- In front of the parts of the address stand the row and the address. -/
theorem inFront_zip {s : Descriptor} (inFront : InFront s row (Name.parts "address.zip")) :
    Descriptor.Reachable s row ∨ Descriptor.Reachable s (.option (.object [("city", .string)])) := by
  rw [parts_zip] at inFront
  obtain ⟨front, rest, split, further, met⟩ := inFront
  rcases front with _ | ⟨first, front⟩
  · cases met with
    | here part => exact .inl part
  · obtain ⟨rfl, split'⟩ := List.cons.inj split
    obtain ⟨u, declared, met⟩ := met.of_object
    cases declared
    rcases front with _ | ⟨second, front⟩
    · cases met with
      | here part => exact .inr part
    · have behind : [] = front ++ rest := (List.cons.inj split').2
      exact absurd (List.append_eq_nil_iff.mp behind.symm).2 further

theorem noList_zip (item : Descriptor) :
    ¬ InFront (.list item) row (Name.parts "address.zip") := by
  intro inFront
  rcases inFront_zip inFront with part | part
  · cases part
  · cases part with
    | option part => cases part

theorem noEmpty_zip : ¬ InFront (.union []) row (Name.parts "address.zip") := by
  intro inFront
  rcases inFront_zip inFront with part | part
  · cases part
  · cases part with
    | option part => cases part

theorem list_color : InFront (.list .string) row (Name.parts "tags.color") :=
  ⟨["tags"], ["color"], parts_color, List.cons_ne_nil _ _, .field .self rfl (.here .self)⟩

end Note

/-- The zip of an address is not checked. Of the colours of tags only empty arrays are accepted. -/
theorem Note.undeclared_unchecked_zip :
    row.Distinct ∧ ¬ row.Declares (Name.parts "address.zip") ∧
      ¬ row.Declares (Name.parts "tags.color") ∧ Unchecked row "address.zip" ∧
      ∀ v, Document.checkAssignment row "tags.color" v = .ok () → v.isHollow = true := by
  have distinct : row.Distinct := by decide
  exact ⟨distinct, undeclared_zip, undeclared_color,
    (undeclared_unchecked_until_list distinct undeclared_zip).1 noList_zip noEmpty_zip,
    (undeclared_unchecked_until_list distinct undeclared_color).2 ⟨.string, list_color⟩⟩

/-- Tags have no colour, and still a colour is refused: not being declared, it is a list of nothing. -/
theorem Note.color_refused :
    ¬ row.Declares (Name.parts "tags.color") ∧
      Document.checkAssignment row "tags.color" (.int 5) =
        .error ⟨.array, .one "array<none>", some (.int 5), [.field "tags.color"]⟩ := by
  refine ⟨undeclared_color, ?_⟩
  have found : row.atPath "tags.color" = .list .absent := by
    rw [Descriptor.atPath, parts_color]
    rfl
  rw [Document.checkAssignment, found]
  rfl

end GraphQuery
