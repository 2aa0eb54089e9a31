import GraphQuery.Json.Distinct
import GraphQuery.Query.Document

/-!
# Merging documents deeply

A partial document is merged into a record key by key, and an object inside it into the object that
stands there; any other value replaces what stands there. `Document.Overrides` says when nothing of
an earlier value can be seen once a later one is merged behind it.
-/

namespace GraphQuery.Document

mutual

/-- Merge a value into the one that stands there. -/
def deepMerge : Json → Json → Json
  | .object base, .object next => .object (deepExtend base next)
  | _, next => next

/-- Merge the entries of the second list one after the other. A missing value counts as null, which
every other value replaces. -/
def deepExtend (base : List (String × Json)) : List (String × Json) → List (String × Json)
  | [] => base
  | (name, v) :: rest =>
    deepExtend (Fields.insert base name (deepMerge ((base.lookup name).getD .null) v)) rest

end

/-- `Overrides later earlier`: the later value replaces the earlier one, or both are objects and the
later one names every key of the earlier one and overrides what stands under it. -/
inductive Overrides : Json → Json → Prop
  | replaced {later : Json} (earlier : Json) : later.isObject = false → Overrides later earlier
  | object {later earlier : List (String × Json)} :
      Fields.names earlier ⊆ Fields.names later →
      (∀ name u v, earlier.lookup name = some u → later.lookup name = some v → Overrides v u) →
      Overrides (.object later) (.object earlier)

end GraphQuery.Document
