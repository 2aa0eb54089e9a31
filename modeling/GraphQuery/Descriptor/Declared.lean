import GraphQuery.Descriptor.Occurrence

/-!
# Declared field paths

`Descriptor.Meets` follows field names into a shape: each name is looked up in the objects that are met
through options, unions and lists. A path is declared when something is met at its end, and
`Descriptor.InFront` says what is met before its last name.
-/

namespace GraphQuery

namespace Descriptor

/-- A descriptor is met in another one behind field names. -/
inductive Meets (s : Descriptor) : Descriptor → List String → Prop
  | here {t : Descriptor} : Reachable s t → Meets s t []
  | field {t u : Descriptor} {fields : List (String × Descriptor)} {name : String}
      {rest : List String} : Reachable (.object fields) t → fields.lookup name = some u →
      Meets s u rest → Meets s t (name :: rest)

/-- Every one of the names is a field of an object that is met behind those in front of it. -/
def Declares (t : Descriptor) (names : List String) : Prop := ∃ s, Meets s t names

/-- A descriptor is met in front of one of the names. -/
def InFront (s t : Descriptor) (names : List String) : Prop :=
  ∃ front rest, names = front ++ rest ∧ rest ≠ [] ∧ Meets s t front

end Descriptor

namespace Json

mutual

/-- An array in which there is nothing but such arrays. -/
def isHollow : Json → Bool
  | array items => areHollow items
  | _ => false

def areHollow : List Json → Bool
  | [] => true
  | v :: rest => isHollow v && areHollow rest

end

theorem areHollow_iff {items : List Json} :
    areHollow items = true ↔ ∀ v ∈ items, v.isHollow = true := by
  induction items with
  | nil => simp [areHollow]
  | cons v rest ih => rw [areHollow, Bool.and_eq_true, ih, List.forall_mem_cons]

end Json

end GraphQuery
