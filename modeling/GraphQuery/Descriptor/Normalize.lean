import GraphQuery.Descriptor.Basic

/-!
# Normal descriptors

A descriptor that was read as it is written may hold unions inside unions, or empty ones.
`Descriptor.normalize` builds it again from its innermost parts outwards, every union through
`unionOf`.
-/

namespace GraphQuery

/-- The constant with a zero that has no sign. -/
def Literal.normalize : Literal → Literal
  | number x => number (if x.isZero then .zero false else x)
  | l => l

namespace Descriptor

mutual

/-- The descriptor with all unions flattened and zeros without a sign. -/
def normalize : Descriptor → Descriptor
  | literal l => literal l.normalize
  | option inner => option (normalize inner)
  | object fields => object (normalizeFields fields)
  | list item => list (normalize item)
  | tuple items => tuple (normalizeItems items)
  | union alts => unionOf (normalizeItems alts)
  | t => t

def normalizeFields : List (String × Descriptor) → List (String × Descriptor)
  | [] => []
  | (name, t) :: rest => (name, normalize t) :: normalizeFields rest

def normalizeItems : List Descriptor → List Descriptor
  | [] => []
  | t :: rest => normalize t :: normalizeItems rest

end

end Descriptor

end GraphQuery
