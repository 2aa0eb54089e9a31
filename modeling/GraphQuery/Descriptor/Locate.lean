import GraphQuery.Descriptor.Check
import GraphQuery.Descriptor.Describe

/-!
# Parsing on a path in text

`Descriptor.parseLocated` parses with one text that is the path to the value at hand. A step is pushed
in front of what is parsed inside and taken off behind it; a failure copies the text and leaves it as
it is. An alternative of a union is tried on a copy. So the place of an error is never put together
from steps: it is what the text was when the error was met.
-/

namespace GraphQuery

/-- Parsing changes the path, and may fail. What a failure has made of the path stays. -/
abbrev Locating := ExceptT LocatedError (StateM String)

namespace Locating

variable {α β : Type}

/-- Cut a text off behind its first characters; the length of a path counts characters as well. -/
def truncate (length : Nat) (text : String) : String := String.ofList (text.toList.take length)

/-- The value at hand is not of the shape itself. -/
def fail (t : Descriptor) (value : Option Json) : Locating α := do
  throw ⟨t.tag, t.expected, value, ← get⟩

/-- Parse one step inside. -/
def within (step : ValueStep) (inside : Locating α) : Locating α := do
  let mark := (← get).length
  modify fun path => path ++ step.render
  let out ← inside
  modify (truncate mark)
  return out

/-- Parse on a copy of the path; an error is dropped. -/
def attempt (alternative : Locating α) : Locating (Option α) := do
  let scratch ← get
  return (alternative.run.run scratch).1.toOption

/-- A possibly absent value; nothing comes out when it is absent and may be. -/
def slot (t : Descriptor) (present : Json → Locating Json) : Option Json → Locating (Option Json)
  | none => if t.acceptsAbsent then pure none else fail t none
  | some v => do return some (← present v)

/-- The items of a list, the first of them at a position. -/
def each (f : α → Locating β) : Nat → List α → Locating (List β)
  | _, [] => pure []
  | position, a :: rest => do
    let b ← within (.item position) (f a)
    return b :: (← each f (position + 1) rest)

end Locating

namespace Descriptor

open Locating

mutual

/-- Restrict a present value, to which the path leads, to what is declared. -/
def parseOn : Descriptor → Json → Locating Json
  | option inner, v => parseOn inner v
  | union alts, v => do
    match ← parseAnyOn alts v with
    | some w => return w
    | none => fail (union alts) (some v)
  | object fields, .object entries => do return .object (← parseFieldsOn fields entries)
  | list item, .array xs => do return .array (← each (parseOn item) 0 xs)
  | tuple items, .array xs =>
    if items.length = xs.length then do return .array (← parseItemsOn 0 items xs)
    else fail (tuple items) (some (.array xs))
  | t, v => if t.acceptsScalar v then pure v else fail t (some v)

/-- The result of the first alternative that parses. -/
def parseAnyOn : List Descriptor → Json → Locating (Option Json)
  | [], _ => pure none
  | t :: rest, v => do
    match ← attempt (parseOn t v) with
    | some w => return some w
    | none => parseAnyOn rest v

/-- The declared fields that are present, in their declared order. -/
def parseFieldsOn : List (String × Descriptor) → List (String × Json) →
    Locating (List (String × Json))
  | [], _ => pure []
  | (name, t) :: rest, entries => do
    let parsed ← within (.field name) (slot t (parseOn t) (entries.lookup name))
    let kept ← parseFieldsOn rest entries
    return (parsed.map fun w => (name, w)).toList ++ kept

def parseItemsOn (position : Nat) : List Descriptor → List Json → Locating (List Json)
  | t :: ts, x :: xs => do
    let y ← within (.item position) (parseOn t x)
    return y :: (← parseItemsOn (position + 1) ts xs)
  | _, _ => pure []

end

/-- Parse a value; the path to it is empty. -/
def parseLocated (t : Descriptor) (v : Json) : Except LocatedError Json :=
  ((t.parseOn v).run.run "").1

end Descriptor

end GraphQuery
