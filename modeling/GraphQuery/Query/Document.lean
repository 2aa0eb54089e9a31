import GraphQuery.Descriptor.Parse
import GraphQuery.Descriptor.Project

/-!
# Documents written to a table

Raw values that are written to a table are checked against the shape of its rows. Fields that the
shape does not declare are left to the server.
-/

namespace GraphQuery.Document

/-- A raw value for a dotted field path has the shape declared there, if one is declared. -/
def checkAssignment (row : Descriptor) (path : String) (v : Json) : Except TypeError Unit :=
  match row.atPath path with
  | .absent => .ok ()
  | t => match t.parse v with
    | .ok _ => .ok ()
    | .error e => .error (e.under (.field path))

mutual

/-- A partial document: its declared keys have the declared shapes. Objects are merged deeply, so an
object inside is partial too. -/
def checkPartial (row : Descriptor) : Json → Except TypeError Unit
  | .object entries => checkEntries row entries
  | v => .error ((Descriptor.object []).mismatch (some v))

def checkEntries (row : Descriptor) : List (String × Json) → Except TypeError Unit
  | [] => .ok ()
  | (name, v) :: rest =>
    match (row.get (.field name)).present, v with
    | .object fields, .object entries =>
      match checkEntries (.object fields) entries with
      | .error e => .error (e.under (.field name))
      | .ok () => checkEntries row rest
    | _, v =>
      match checkAssignment row name v with
      | .error e => .error e
      | .ok () => checkEntries row rest

end

/-- Two documents one after the other: the keys of the later one win. -/
def merge : Json → Json → Json
  | .object base, .object next => .object (Fields.extend base next)
  | _, next => next

end GraphQuery.Document
