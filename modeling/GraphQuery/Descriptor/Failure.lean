import GraphQuery.Descriptor.Check
import GraphQuery.Descriptor.Describe

/-!
# Where a value fails to have a shape

A path of steps leads into a value and, seen through options, into a shape. `Descriptor.FailsAt` says
that an error names the first part of a value that is to blame: its path leads to the descriptor and
to the value that it reports, the two do not fit, no part of the value could be blamed in its place,
and everything in front of the path is accepted.
-/

namespace GraphQuery

namespace Json

/-- What stands one step inside a value: a field, which may be absent, or an item that is there. -/
def part : Json → ValueStep → Option (Option Json)
  | object entries, .field name => some (entries.lookup name)
  | array xs, .item i => xs[i]?.map some
  | _, _ => none

/-- What stands at the end of a path, if the path leads anywhere. It leads into nothing that is
absent, so an absent value can only stand at its end. -/
def along : Option Json → List ValueStep → Option (Option Json)
  | x, [] => some x
  | some v, step :: path => (v.part step).bind fun y => along y path
  | none, _ :: _ => none

end Json

namespace Descriptor

/-- The shape inside all options around it. -/
def core : Descriptor → Descriptor
  | option inner => core inner
  | t => t

/-- The shape one step inside: of a declared field, of the items of a list, of a position. -/
def part : Descriptor → ValueStep → Option Descriptor
  | object fields, .field name => fields.lookup name
  | list item, .item _ => some item
  | tuple items, .item i => items[i]?
  | _, _ => none

/-- The shape at the end of a path, seen through the options on the way and at its end. -/
def along : Descriptor → List ValueStep → Option Descriptor
  | t, [] => some t.core
  | t, step :: path => (t.core.part step).bind fun u => along u path

/-- The value is a container of the kind, and for positions of the length, that the shape asks for.
Only its parts can be wrong then. -/
def takesApart : Descriptor → Option Json → Bool
  | object _, some (.object _) => true
  | list _, some (.array _) => true
  | tuple items, some (.array xs) => items.length == xs.length
  | _, _ => false

/-- What comes before a step is accepted: the fields that are declared before a field, the items in
front of a position. -/
def acceptsBefore : Descriptor → Json → ValueStep → Bool
  | object fields, .object entries, .field name =>
    (object (fields.takeWhile fun field => field.1 != name)).check (some (.object entries))
  | list item, .array xs, .item i => (list item).check (some (.array (xs.take i)))
  | tuple items, .array xs, .item i => (tuple (items.take i)).check (some (.array (xs.take i)))
  | _, _, _ => false

/-- The error `e` blames the first part of the possibly absent value `x` that does not have the shape
it should have as a part of `t`, which is `s`. -/
structure FailsAt (t : Descriptor) (x : Option Json) (e : TypeError) (s : Descriptor) : Prop where
  shape : t.along e.path = some s
  value : Json.along x e.path = some e.value
  tag : e.tag = s.tag
  expected : e.expected = s.expected
  rejected : s.check e.value = false
  /-- The error could not be pushed deeper. -/
  deepest : s.takesApart e.value = false
  /-- Along the path everything in front of the next step is accepted. -/
  first : ∀ front step rest, e.path = front ++ step :: rest →
    ∃ u v, t.along front = some u ∧ Json.along x front = some (some v) ∧
      u.acceptsBefore v step = true

end Descriptor

end GraphQuery
