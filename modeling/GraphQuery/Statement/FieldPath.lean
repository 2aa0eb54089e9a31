import GraphQuery.Descriptor.Occurrence
import GraphQuery.Statement.Select

/-!
# Field paths, with and without links

What stands at a dotted path of a row is described in two ways. A selection by paths reads the shape
of the row as it is written, `Descriptor.atParts`. An expression that is projected field by field
follows links: in front of every step the links to declared tables are replaced by the rows they lead
to, `Database.behind`. A path is settled as far as the replacing changes nothing.
-/

namespace GraphQuery

namespace Descriptor

/-- The shape at the end of field names, as it is written. -/
def atParts (t : Descriptor) (names : List String) : Descriptor :=
  names.foldl (fun t name => t.get (.field name)) t

/-- The table that a link leads to, seen through options and lists. -/
def link? : Descriptor → Option String
  | record table => table
  | option inner => link? inner
  | list item => link? item
  | _ => none

/-- Another shape in the place of the link, inside the same options and lists. -/
def relink : Descriptor → Descriptor → Descriptor
  | option inner, new => option (relink inner new)
  | list item, new => list (relink item new)
  | _, new => new

end Descriptor

namespace Database

open Descriptor (Reachable unionOf)

/-- The shape at the end of field names when links are followed in front of each of them. -/
def behind (db : Database) (t : Descriptor) (names : List String) : Descriptor :=
  names.foldl (fun t name => (db.resolve t).get (.field name)) t

/-- As far as a field is projected there are no links to declared tables, and unions are as their
constructor builds them. -/
structure Settled (db : Database) (t : Descriptor) : Prop where
  links : ∀ table, Reachable (.record (some table)) t → db.declaration? table = none
  unions : ∀ alts, Reachable (.union alts) t → unionOf alts = .union alts

/-- The shapes in front of all names of a path are settled. The shape at its end need not be. -/
def SettledAlong (db : Database) : Descriptor → List String → Prop
  | _, [] => True
  | t, name :: rest => db.Settled t ∧ SettledAlong db (t.get (.field name)) rest

/-- The path is settled up to a link to the row of `linked`, and has more names behind it. -/
structure MeetsLink (db : Database) (t : Descriptor) (names front rest : List String)
    (linked : Declaration) : Prop where
  split : names = front ++ rest
  further : rest ≠ []
  settled : db.SettledAlong t front
  link : ∃ table, (t.atParts front).link? = some table ∧ db.declaration? table = some linked

end Database

/-- Project into fields, one behind the other. -/
def Expr.getFields (db : Database) (e : Expr) (names : List String) : Expr :=
  names.foldl (fun e name => e.get db (.field name)) e

namespace Select

/-- What stands at a path of the rows when just this path is selected. -/
def selectedAt (db : Database) (s : Select) (path : String) : Descriptor :=
  ((s.fields [path]).rowType db).atPath path

/-- The record projected along a path. -/
def projectedAt (db : Database) (s : Select) (path : String) : Expr :=
  s.record.getFields db (Name.parts path)

end Select

end GraphQuery
