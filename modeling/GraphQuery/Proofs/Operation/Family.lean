import GraphQuery.Operation.Table
import GraphQuery.Proofs.Descriptor.Absence
import GraphQuery.Proofs.Outcome

/-!
# Families and their values

A descriptor has a family when all that it offers, null and absence aside, has that family, and then every
value of that shape but null is of the family: an operation of the family is never offered on another
value. What a descriptor offers is what stripping absence leaves of it. None of that is an option or a
union, so it is what its own family is read off, and allowing or stripping absence does not change it.
-/

namespace GraphQuery

/-- The value is of the family. -/
def Family.includes : Family → Json → Bool
  | string, .string _ => true
  | number, .number _ => true
  | array, .array _ => true
  | date, .string s => Text.isDatetime s
  | record, v => (RecordRef.ofJson? v).isSome
  | _, _ => false

namespace Descriptor

open Outcome

variable {t u : Descriptor} {f : Family} {v : Json}

/-! ## What is left when absence is stripped -/

/-- An alternative that is left has nothing to strip in it. -/
theorem present_of_mem_alternatives (t : Descriptor) (part : u ∈ t.present.alternatives) :
    u.present = u := by
  cases t with
  | option inner =>
      rw [present] at part
      exact present_of_mem_alternatives inner part
  | union alts =>
      have flat : ∀ s ∈ presentAlternatives alts, s.Flat := by
        intro s stays
        obtain ⟨t, _, _, rfl⟩ := mem_presentAlternatives.mp stays
        exact flat_present t
      rw [present, (flat_unionOf flat).2] at part
      rcases mem_of_mem_foldl_addAlternative part with none | added
      · cases none
      · obtain ⟨s, stays, own⟩ := List.mem_flatMap.mp added
        obtain ⟨t, member, _, rfl⟩ := mem_presentAlternatives.mp stays
        exact present_of_mem_alternatives t own
  | never => cases part
  | _ =>
      cases List.mem_singleton.mp part
      rfl
termination_by sizeOf t

/-- The family is read off a descriptor that has nothing to strip in it and is no union. -/
theorem family?_of_isSingle (single : u.isSingle = true) (stripped : u.present = u) :
    u.family? = u.plainFamily? := by
  rw [family?, stripped]
  cases u with
  | union alts => cases single
  | _ => rfl

theorem commonFamily?_eq (ts : List Descriptor) :
    commonFamily? ts = agreed (ts.map plainFamily?) := by
  unfold commonFamily?
  cases ts.map plainFamily? with
  | nil => rfl
  | cons first rest => rfl

/-- The family is the one that all alternatives have that are left, null aside. -/
theorem family?_eq (t : Descriptor) :
    t.family? = agreed ((t.present.alternatives.filter fun u => !u.isNull).map family?) := by
  have plain : ∀ u ∈ t.present.alternatives.filter fun u => !u.isNull,
      u.family? = u.plainFamily? := by
    intro u kept
    have part := (List.mem_filter.mp kept).1
    exact family?_of_isSingle ((flat_present t).isSingle part) (present_of_mem_alternatives t part)
  rw [List.map_congr_left plain, ← commonFamily?_eq, family?]
  -- What is no union is a choice among one, and null and `never` are no choice at all.
  cases t.present with
  | _ => rfl

theorem plainFamily?_of_mem_alternatives (family : t.family? = some f)
    (part : u ∈ t.present.alternatives) (other : u.isNull = false) : u.plainFamily? = some f := by
  have single := (flat_present t).isSingle part
  rw [← family?_of_isSingle single (present_of_mem_alternatives t part)]
  rw [family?_eq, agreed_eq_some_iff] at family
  have kept : u ∈ t.present.alternatives.filter fun u => !u.isNull := by simp [part, other]
  exact family.2 _ (List.mem_map_of_mem kept)

/-! ## Values of a family -/

theorem includes_of_plainFamily? (family : u.plainFamily? = some f)
    (accepted : u.validate v = true) : f.includes v = true := by
  cases u with
  | string =>
      cases family
      cases v with
      | string => rfl
      | _ => cases accepted
  | number =>
      cases family
      cases v with
      | number => rfl
      | _ => cases accepted
  | date =>
      cases family
      cases v with
      | string s => exact accepted
      | _ => cases accepted
  | literal value =>
      cases value with
      | bool => cases family
      | number =>
          cases family
          cases v with
          | number => rfl
          | _ => cases accepted
      | string =>
          cases family
          cases v with
          | string => rfl
          | _ => cases accepted
  | record table =>
      cases family
      have reads : acceptsRecord table v = true := accepted
      rw [Family.includes]
      cases read : RecordRef.ofJson? v with
      | none => simp [acceptsRecord, read] at reads
      | some ref => rfl
  | list item =>
      cases family
      cases v with
      | array => rfl
      | _ => cases accepted
  | tuple items =>
      cases family
      cases v with
      | array => rfl
      | _ => cases accepted
  | _ => cases family

/-- A value is accepted by one of the alternatives that are left when absence is stripped. -/
theorem exists_present_alternative (accepted : t.validate v = true) :
    ∃ u ∈ t.present.alternatives, u.validate v = true := by
  rw [validate, ← check_present] at accepted
  exact (check_alternatives t.present (some v)).mpr accepted

/-! ## Absence -/

theorem present_optional (t : Descriptor) : t.optional.present = t.present := by
  unfold optional
  split
  · rfl
  · rw [present]

theorem present_present (t : Descriptor) (bare : ¬ Occurs (option absent) t) :
    t.present.present = t.present := by
  by_cases there : t = absent
  · subst there
    rfl
  · exact present_eq_self (flat_present t) (acceptsAbsent_present t there bare)

/-- **Families.** Every value of a shape with a family is of that family or null. Letting a value be absent
changes no family, and stripping absence changes none where no option wraps absence. -/
theorem family_of_values (t : Descriptor) :
    (∀ f v, t.family? = some f → v ≠ .null → t.validate v = true → f.includes v = true) ∧
      t.optional.family? = t.family? ∧
      (¬ Occurs (option absent) t → t.present.family? = t.family?) := by
  refine ⟨?_, ?_, ?_⟩
  · intro f v family there accepted
    obtain ⟨u, part, accepted⟩ := exists_present_alternative accepted
    have other : u.isNull = false := by
      cases u with
      | null =>
          cases v with
          | null => exact absurd rfl there
          | _ => cases accepted
      | _ => rfl
    exact includes_of_plainFamily? (plainFamily?_of_mem_alternatives family part other) accepted
  · rw [family?, family?, present_optional]
  · intro bare
    rw [family?, family?, present_present t bare]

/-- Absence that an option wraps is left when absence is stripped once, and has no family. -/
example : (union [number, option absent]).family? = none ∧
    (union [number, option absent]).present.family? = some .number := ⟨rfl, rfl⟩

namespace Grade

/-- A text or the letter A, which may be null or left out, in a union of unions. -/
def shape : Descriptor :=
  option (union [literal (.string "A"), union [null, absent], option (union [string, never])])

end Grade

/-- A grade has the methods of texts, whether it may be absent or not. -/
theorem family_of_values_grade :
    Grade.shape.family? = some .string ∧ Json.string "B" ≠ .null ∧
      Grade.shape.validate (.string "B") = true ∧ Family.string.includes (.string "B") = true ∧
      ¬ Occurs (option absent) Grade.shape ∧ Grade.shape.present.family? = some .string := by
  have family : Grade.shape.family? = some .string := by decide
  have accepted : Grade.shape.validate (.string "B") = true := by decide
  have there : Json.string "B" ≠ .null := Json.noConfusion
  have bare : ¬ Occurs (option absent) Grade.shape := by decide
  obtain ⟨values, _, stripped⟩ := family_of_values Grade.shape
  refine ⟨family, there, accepted, values .string _ family there accepted, bare, ?_⟩
  rw [stripped bare, family]

end Descriptor

end GraphQuery
