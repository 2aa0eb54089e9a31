import GraphQuery.Descriptor.Basic

/-!
# The descriptor of a value

A raw value that goes into a query has a shape of its own: the kinds of its parts, the items of a
list taken together.
-/

namespace GraphQuery.Descriptor

mutual

/-- The shape of a raw value. -/
def ofValue : Json → Descriptor
  | .null => null
  | .bool _ => bool
  | .number _ => number
  | .string _ => string
  | .array xs => list (unionOf (ofValues xs))
  | .object entries => object (ofEntries entries)

def ofValues : List Json → List Descriptor
  | [] => []
  | v :: rest => ofValue v :: ofValues rest

def ofEntries : List (String × Json) → List (String × Descriptor)
  | [] => []
  | (name, v) :: rest => (name, ofValue v) :: ofEntries rest

end

end GraphQuery.Descriptor
