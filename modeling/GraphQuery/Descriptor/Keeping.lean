import GraphQuery.Descriptor.Check
import GraphQuery.Descriptor.OfValue

/-!
# What the shape of a value keeps of another one

The items of a list have one shape together, and an item is restricted to what the first of them
declares whose shape it has. `Json.keeps` says that no key is lost by this.
-/

namespace GraphQuery.Json

open Descriptor (ofValue)

mutual

/-- The shape of the first value, which the second one has, declares all keys of the second one. -/
def keeps : Json → Json → Bool
  | array ys, array xs => xs.all fun x => firstKeeps ys x
  | object given, object entries =>
    (Fields.names entries).all (Fields.contains given) && fieldsKeep given entries
  | _, _ => true

/-- Of the items the first one counts whose shape the value has. -/
def firstKeeps : List Json → Json → Bool
  | [], _ => false
  | y :: rest, x => if (ofValue y).validate x then keeps y x else firstKeeps rest x

def fieldsKeep : List (String × Json) → List (String × Json) → Bool
  | [], _ => true
  | (name, y) :: rest, entries => (entries.lookup name).all (keeps y) && fieldsKeep rest entries

end

end GraphQuery.Json
