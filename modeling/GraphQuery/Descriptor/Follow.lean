import GraphQuery.Descriptor.Occurrence
import GraphQuery.Descriptor.Project

/-!
# Following a key into a value

`Json.follow` takes the step into a value that `Descriptor.get` takes into its shape. A field of a
list is the list of the fields of its items, of those that have it.
-/

namespace GraphQuery

namespace Json

mutual

/-- What stands behind a key, if anything does. -/
def follow : Json → Key → Option Json
  | object entries, .field name => entries.lookup name
  | array xs, .index i => xs[i]?
  | array xs, .present i => xs[i]?
  | array xs, .field name => some (array (followEach xs (.field name)))
  | _, _ => none

/-- What stands behind a key of the items that have it. -/
def followEach : List Json → Key → List Json
  | [], _ => []
  | x :: rest, key =>
    match follow x key with
    | some y => y :: followEach rest key
    | none => followEach rest key

end

end Json

/-- A shape speaks for a key of a value. The fields of tuples and of record references are not
declared, and a position that is said to be in range has to be. -/
def Descriptor.Covers (t : Descriptor) (w : Json) : Key → Prop
  | .field _ =>
    (∀ items, ¬ Reachable (.tuple items) t) ∧ ∀ table, ¬ Reachable (.record table) t
  | .index _ => True
  | .present i => ∀ xs, w = .array xs → i < xs.length

end GraphQuery
