import GraphQuery.Schema.Graph

/-!
# The schema of a database

A `Database` holds declarations of different names. Declaring a name again puts the new declaration
into the place of the old one. `Database.resolve` replaces links to declared tables by the rows they
lead to.
-/

namespace GraphQuery

/-- The declarations of a schema, no two of one name. -/
structure Database where
  declarations : List Declaration
  distinct_names : (declarations.map Declaration.name).Nodup

namespace Database

/-- Put a declaration into the place of the one of its name, or at the end. -/
def place : List Declaration → Declaration → List Declaration
  | [], d => [d]
  | old :: rest, d => if old.name = d.name then d :: rest else old :: place rest d

theorem names_place (ds : List Declaration) (d : Declaration) :
    (place ds d).map Declaration.name =
      if d.name ∈ ds.map Declaration.name then ds.map Declaration.name
      else ds.map Declaration.name ++ [d.name] := by
  induction ds with
  | nil => simp [place]
  | cons old rest ih =>
    by_cases h : old.name = d.name
    · simp [place, h]
    · have h' : ¬ d.name = old.name := fun e => h e.symm
      simp only [place, if_neg h, List.map_cons, List.mem_cons, h', false_or, ih]
      split <;> simp

theorem nodup_place {ds : List Declaration} (h : (ds.map Declaration.name).Nodup)
    (d : Declaration) : ((place ds d).map Declaration.name).Nodup := by
  rw [names_place]
  split
  · exact h
  · next hn =>
    rw [List.nodup_append]
    refine ⟨h, by simp, ?_⟩
    intro a ha b hb
    simp only [List.mem_singleton] at hb
    subst hb
    exact fun e => hn (e ▸ ha)

/-- A schema without declarations. -/
def empty : Database := ⟨[], by simp⟩

/-- Declare a table or an edge. -/
def declare (db : Database) (d : Declaration) : Database :=
  ⟨place db.declarations d, nodup_place db.distinct_names d⟩

/-- The schema of declarations, later ones replacing earlier ones of the same name. -/
def ofDeclarations (ds : List Declaration) : Database := ds.foldl declare empty

/-- The declaration of a table or an edge. -/
def declaration? (db : Database) (table : String) : Option Declaration :=
  db.declarations.find? fun d => d.name == table

def graph (db : Database) : SchemaGraph := SchemaGraph.build db.declarations

mutual

/-- Replace links to declared tables by the shape of their rows, seen through options, lists and
unions. The rows themselves keep their links. -/
def resolve (db : Database) : Descriptor → Descriptor
  | .record (some table) => match db.declaration? table with
    | some d => d.recordType
    | none => .record (some table)
  | .option inner => .option (resolve db inner)
  | .list item => .list (resolve db item)
  | .union alts => .unionOf (resolveEach db alts)
  | t => t

def resolveEach (db : Database) : List Descriptor → List Descriptor
  | [] => []
  | t :: rest => resolve db t :: resolveEach db rest

end

/-- The schema that a JSON list of declarations describes. -/
def ofJson (v : Json) : Except DecodeError Database :=
  (Declaration.Decode.declarations.ofJson v).map ofDeclarations

/-- The schema that a JSON list of declarations in a text describes. -/
def ofText (text : String) : Except DecodeError Database :=
  (Declaration.Decode.declarations.ofText text).map ofDeclarations

end Database

end GraphQuery
