import GraphQuery.Descriptor.Basic
import GraphQuery.Record
import GraphQuery.Text.Datetime
import GraphQuery.Text.Uuid

/-!
# Checking values

`Descriptor.check` decides whether a possibly absent value has a shape. An object may have keys that
its shape does not declare; a declared key that is missing is checked as the absent value.
-/

namespace GraphQuery.Descriptor

/-- A record reference of the table, or of any table if none is given. -/
def acceptsRecord (table : Option String) (v : Json) : Bool :=
  match RecordRef.ofJson? v, table with
  | some ref, some t => ref.table == t
  | some _, none => true
  | none, _ => false

/-- A present value has the shape of a descriptor that has no parts. -/
def acceptsScalar : Descriptor → Json → Bool
  | string, .string _ => true
  | number, .number _ => true
  | bool, .bool _ => true
  | null, .null => true
  | date, .string s => Text.isDatetime s
  | uuid, .string s => Text.isUuid s
  | literal l, v => l.matchesValue v
  | record table, v => acceptsRecord table v
  | _, _ => false

mutual

/-- A possibly absent value has the shape. -/
def check : Descriptor → Option Json → Bool
  | absent, v => v.isNone
  | option _, none => true
  | option inner, some v => check inner (some v)
  | union alts, v => checkAny alts v
  | object fields, some (.object entries) => checkFields fields entries
  | list item, some (.array xs) => xs.all fun x => check item (some x)
  | tuple items, some (.array xs) => checkItems items xs
  | t, some v => acceptsScalar t v
  | _, none => false

def checkAny : List Descriptor → Option Json → Bool
  | [], _ => false
  | t :: rest, v => check t v || checkAny rest v

def checkFields : List (String × Descriptor) → List (String × Json) → Bool
  | [], _ => true
  | (name, t) :: rest, entries => check t (entries.lookup name) && checkFields rest entries

/-- The values have the shapes of their positions, and there are as many of them. -/
def checkItems : List Descriptor → List Json → Bool
  | [], [] => true
  | t :: ts, x :: xs => check t (some x) && checkItems ts xs
  | _, _ => false

end

/-- A present value has the shape. -/
def validate (t : Descriptor) (v : Json) : Bool := t.check (some v)

end GraphQuery.Descriptor
