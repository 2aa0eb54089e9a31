import GraphQuery.Descriptor.Failure
import GraphQuery.Query.Document

/-!
# What a partial document is

`Document.Partial` says what may be merged into a record: an object, each of whose keys is not
declared, or has a whole value of the declared shape, or an object that is partial itself. A key is
meant as it stands. `Document.Verbatim` are the documents whose keys are also read so: a key with a dot
in it is read as a path, and a field that is declared as absent as if it were not declared.
`Document.Blames` says what an error of a document points at.
-/

namespace GraphQuery.Document

mutual

/-- A partial document of an object with the given fields. -/
inductive Partial : List (String × Descriptor) → Json → Prop
  | document {fields : List (String × Descriptor)} {entries : List (String × Json)} :
      (∀ name v, (name, v) ∈ entries → PartialAt fields name v) → Partial fields (.object entries)

/-- A value may stand under a key of a partial document. -/
inductive PartialAt : List (String × Descriptor) → String → Json → Prop
  | undeclared {fields : List (String × Descriptor)} {name : String} (v : Json) :
      fields.lookup name = none → PartialAt fields name v
  | inside {fields inner : List (String × Descriptor)} {name : String} {t : Descriptor} {v : Json} :
      fields.lookup name = some t → t.present = .object inner → Partial inner v →
      PartialAt fields name v
  | whole {fields : List (String × Descriptor)} {name : String} {t : Descriptor} {v : Json} :
      fields.lookup name = some t → t.validate v = true → PartialAt fields name v

end

/-- No key that is looked at has a dot in it or is declared as absent. -/
inductive Verbatim : List (String × Descriptor) → Json → Prop
  | scalar (fields : List (String × Descriptor)) {v : Json} : v.isObject = false → Verbatim fields v
  | document {fields : List (String × Descriptor)} {entries : List (String × Json)} :
      (∀ name v, (name, v) ∈ entries → '.' ∉ name.toList ∧ fields.lookup name ≠ some .absent) →
      (∀ name v t inner, (name, v) ∈ entries → fields.lookup name = some t →
        t.present = .object inner → Verbatim inner v) →
      Verbatim fields (.object entries)

mutual

/-- The error blames a part of the value for not being a partial document of the shape. -/
inductive Blames : Descriptor → Json → TypeError → Prop
  /-- Only objects can be merged. -/
  | document (row : Descriptor) {v : Json} : v.isObject = false →
      Blames row v ((Descriptor.object []).mismatch (some v))
  | key {row : Descriptor} {entries : List (String × Json)} {name : String} {v : Json}
      {e : TypeError} : entries.lookup name = some v → BlamesAt row name v e →
      Blames row (.object entries) (e.under (.field name))

/-- The error blames a part of the value under a key. -/
inductive BlamesAt : Descriptor → String → Json → TypeError → Prop
  | inside {row : Descriptor} {name : String} {inner : List (String × Descriptor)}
      {entries : List (String × Json)} {e : TypeError} :
      (row.get (.field name)).present = .object inner → Blames (.object inner) (.object entries) e →
      BlamesAt row name (.object entries) e
  | whole {row : Descriptor} {name : String} {v : Json} {e : TypeError} {s : Descriptor} :
      (row.atPath name).FailsAt (some v) e s → BlamesAt row name v e

end

end GraphQuery.Document
