import GraphQuery.Descriptor.Basic
import GraphQuery.Text.Name

/-!
# Projections

`Descriptor.get` gives the shape of a field or of an item without looking at a value. A key that the
shape does not have leads to the absent value. A field of a list is the list of the fields of its
items.
-/

namespace GraphQuery

/-- A step into a value. -/
inductive Key
  | field (name : String)
  /-- A position that may be out of range. -/
  | index (position : Nat)
  /-- A position that is known to be in range. -/
  | present (position : Nat)
  deriving DecidableEq, Repr

/-- A key in query text: `.field` or `[n]`. -/
def Key.segment : Key → String
  | field name => "." ++ Name.ident name
  | index i => "[" ++ toString i ++ "]"
  | present i => "[" ++ toString i ++ "]"

namespace Descriptor

mutual

/-- The shape behind a key. -/
def get : Descriptor → Key → Descriptor
  | object fields, .field name => (fields.lookup name).getD absent
  | tuple items, .index i => items[i]?.getD absent
  | tuple items, .present i => items[i]?.getD absent
  | list item, .index _ => unionOf [item, absent]
  | list item, .present _ => item
  | list item, .field name => list (get item (.field name))
  | option inner, key => (get inner key).optional
  | union alts, key => unionOf (getEach alts key)
  | _, _ => absent

def getEach : List Descriptor → Key → List Descriptor
  | [], _ => []
  | t :: rest, key => get t key :: getEach rest key

end

/-- The shape at a dotted field path; absent when the path is not declared. -/
def atPath (t : Descriptor) (path : String) : Descriptor :=
  (Name.parts path).foldl (fun t part => t.get (.field part)) t

end Descriptor

end GraphQuery
