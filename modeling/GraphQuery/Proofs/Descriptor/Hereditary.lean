import GraphQuery.Proofs.Descriptor.Alternatives
import GraphQuery.Proofs.Descriptor.Projection

/-!
# Properties of all parts

Projecting a descriptor takes it apart and puts options, lists and unions around the parts. So a
property that passes to parts and is kept by those three holds of what stands behind a key, whatever the
property is about.
-/

namespace GraphQuery.Descriptor

/-- A property that every part of a descriptor shares, and that options, lists and unions have when what
they are built from has it. -/
structure Hereditary (p : Descriptor → Prop) : Prop where
  part : ∀ {s t : Descriptor}, p t → Occurs s t → p s
  absent : p absent
  option : ∀ {inner : Descriptor}, p inner → p (option inner)
  list : ∀ {item : Descriptor}, p item → p (list item)
  unionOf : ∀ {ts : List Descriptor}, (∀ t ∈ ts, p t) → p (unionOf ts)

namespace Hereditary

variable {p : Descriptor → Prop}

theorem optional (kept : Hereditary p) {t : Descriptor} (own : p t) : p t.optional := by
  unfold Descriptor.optional
  split
  · exact own
  · exact kept.option own

theorem get (kept : Hereditary p) (t : Descriptor) (own : p t) (key : Key) : p (t.get key) := by
  cases t with
  | object fields =>
      cases key with
      | field name =>
          rw [Descriptor.get]
          cases declared : fields.lookup name with
          | none => exact kept.absent
          | some u => exact kept.part own (.field (Fields.mem_of_lookup declared) .self)
      | _ => exact kept.absent
  | option inner =>
      rw [Descriptor.get]
      exact kept.optional (kept.get inner (kept.part own (.option .self)) key)
  | list item =>
      have inside : p item := kept.part own (.item .self)
      cases key with
      | field name => exact kept.list (kept.get item inside (.field name))
      | index i =>
          refine kept.unionOf ?_
          rw [List.forall_mem_cons, List.forall_mem_singleton]
          exact ⟨inside, kept.absent⟩
      | present i => exact inside
  | tuple items =>
      have position : ∀ i : Nat, p (items[i]?.getD .absent) := by
        intro i
        cases found : items[i]? with
        | none => exact kept.absent
        | some t => exact kept.part own (.position (List.mem_of_getElem? found) .self)
      cases key with
      | field name => exact kept.absent
      | index i => exact position i
      | present i => exact position i
  | union alts =>
      rw [Descriptor.get, getEach_eq_map]
      refine kept.unionOf ?_
      intro u made
      obtain ⟨t, member, rfl⟩ := List.mem_map.mp made
      exact kept.get t (kept.part own (.alternative member .self)) key
  | _ => exact kept.absent
termination_by sizeOf t

end Hereditary

theorem hereditary_distinct : Hereditary Distinct where
  part := Distinct.of_occurs
  absent := fun _ part => nomatch part
  option := Distinct.option
  list := Distinct.list
  unionOf := Distinct.unionOf

end GraphQuery.Descriptor
