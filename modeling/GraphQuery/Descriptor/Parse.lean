import GraphQuery.Descriptor.Check
import GraphQuery.Descriptor.Describe

/-!
# Parsing values

`Descriptor.parse` accepts what `Descriptor.check` accepts and returns the value restricted to what
is declared: an object keeps the declared keys in the declared order. When a value fails, the error
names the first failing part inside it by the steps that lead there; of alternatives the first that
parses is taken, and if none does, the error is at the union. `Descriptor.parseLocated` parses on a
path in text instead, and comes to the same.
-/

namespace GraphQuery.Descriptor

/-- Map with the positions, up to the first failure. -/
def traverseFrom {α β ε : Type} (f : Nat → α → Except ε β) : Nat → List α → Except ε (List β)
  | _, [] => .ok []
  | i, a :: rest =>
    match f i a with
    | .error e => .error e
    | .ok b => match traverseFrom f (i + 1) rest with
      | .error e => .error e
      | .ok bs => .ok (b :: bs)

mutual

/-- Restrict a present value to what is declared. -/
def parse : Descriptor → Json → Except TypeError Json
  | option inner, v => parse inner v
  | union alts, v => match parseFirst alts v with
    | some w => .ok w
    | none => .error ((union alts).mismatch (some v))
  | object fields, .object entries => match parseFields fields entries with
    | .error e => .error e
    | .ok kept => .ok (.object kept)
  | list item, .array xs =>
    match traverseFrom (fun i x => (parse item x).mapError (TypeError.under (.item i))) 0 xs with
    | .error e => .error e
    | .ok ys => .ok (.array ys)
  | tuple items, .array xs =>
    if items.length = xs.length then
      match parseItems 0 items xs with
      | .error e => .error e
      | .ok ys => .ok (.array ys)
    else .error ((tuple items).mismatch (some (.array xs)))
  | t, v => if t.acceptsScalar v then .ok v else .error (t.mismatch (some v))

/-- The result of the first alternative that parses. -/
def parseFirst : List Descriptor → Json → Option Json
  | [], _ => none
  | t :: rest, v => match parse t v with
    | .ok w => some w
    | .error _ => parseFirst rest v

/-- The declared fields that are present, in their declared order. -/
def parseFields : List (String × Descriptor) → List (String × Json) →
    Except TypeError (List (String × Json))
  | [], _ => .ok []
  | (name, t) :: rest, entries =>
    match entries.lookup name with
    | none =>
      if t.acceptsAbsent then parseFields rest entries
      else .error ((t.mismatch none).under (.field name))
    | some v => match parse t v with
      | .error e => .error (e.under (.field name))
      | .ok w => match parseFields rest entries with
        | .error e => .error e
        | .ok kept => .ok ((name, w) :: kept)

def parseItems (position : Nat) : List Descriptor → List Json → Except TypeError (List Json)
  | t :: ts, x :: xs => match parse t x with
    | .error e => .error (e.under (.item position))
    | .ok y => match parseItems (position + 1) ts xs with
      | .error e => .error e
      | .ok ys => .ok (y :: ys)
  | _, _ => .ok []

end

/-- Parse a possibly absent value; nothing comes out when it is absent and may be. -/
def parseSlot (t : Descriptor) : Option Json → Except TypeError (Option Json)
  | none => if t.acceptsAbsent then .ok none else .error (t.mismatch none)
  | some v => (t.parse v).map some

end GraphQuery.Descriptor
