import GraphQuery.Descriptor.Check
import GraphQuery.Descriptor.Occurrence
import Mathlib.Data.List.Perm.Subperm

/-!
# Restricted values

A value is restricted by dropping keys of its objects, or by putting them into another order;
`Json.Restricts` says that nothing else happened to it. `Descriptor.Restricted` says which keys are
kept where: wherever an object's shape met an object, those that the shape declares and the object
has, in the declared order.
-/

namespace GraphQuery

/-- `Restricts w v`: the value `w` is `v` without some keys of its objects, the others in any order.
What stands under a key that is kept is again restricted. -/
inductive Json.Restricts : Json → Json → Prop
  | same (v : Json) : Restricts v v
  | array {ys xs : List Json} : List.Forall₂ Restricts ys xs → Restricts (.array ys) (.array xs)
  | object {kept entries : List (String × Json)} :
      (Fields.names kept).Subperm (Fields.names entries) →
      (∀ name w v, kept.lookup name = some w → entries.lookup name = some v → Restricts w v) →
      Restricts (.object kept) (.object entries)

/-- `Restricted t v w`: the value `v` has the shape `t`, and `w` is what the shape declares of it. -/
inductive Descriptor.Restricted : Descriptor → Json → Json → Prop
  /-- A value without parts stays as it is. -/
  | scalar {t : Descriptor} {v : Json} : t.acceptsScalar v = true → Restricted t v v
  | option {inner : Descriptor} {v w : Json} :
      Restricted inner v w → Restricted (.option inner) v w
  | union {alts : List Descriptor} {t : Descriptor} {v w : Json} :
      t ∈ alts → Restricted t v w → Restricted (.union alts) v w
  /-- The keys that are declared and present, in their declared order. A declared key may be missing
  where absence is accepted. -/
  | object {fields : List (String × Descriptor)} {entries kept : List (String × Json)} :
      Fields.names kept = (Fields.names fields).filter (Fields.contains entries) →
      (∀ name t, fields.lookup name = some t → entries.lookup name = none →
        t.acceptsAbsent = true) →
      (∀ name t v w, fields.lookup name = some t → entries.lookup name = some v →
        kept.lookup name = some w → Restricted t v w) →
      Restricted (.object fields) (.object entries) (.object kept)
  | list {item : Descriptor} {xs ys : List Json} :
      ys.length = xs.length →
      (∀ (i : Nat) x y, xs[i]? = some x → ys[i]? = some y → Restricted item x y) →
      Restricted (.list item) (.array xs) (.array ys)
  | tuple {items : List Descriptor} {xs ys : List Json} :
      items.length = xs.length → ys.length = xs.length →
      (∀ (i : Nat) t x y, items[i]? = some t → xs[i]? = some x → ys[i]? = some y →
        Restricted t x y) →
      Restricted (.tuple items) (.array xs) (.array ys)

end GraphQuery
