import GraphQuery.Schema.Declaration

/-!
# The schema graph

Tables and edges are the nodes of a graph. An edge `e` from a source `s` to a target `t` is passed in
two hops, from `s` to `e` and from `e` to `t`. `SchemaGraph.build` lists for every name in the schema
what one hop reaches in either direction.
-/

namespace GraphQuery

/-- For every node the nodes it is linked to, both in order of first mention. -/
abbrev Adjacency := List (String × List String)

namespace Adjacency

/-- Enter a node without links unless it is there. -/
def touch (adj : Adjacency) (node : String) : Adjacency :=
  if Fields.contains adj node then adj else adj ++ [(node, [])]

/-- What a node is linked to. -/
def linked (adj : Adjacency) (node : String) : List String := (adj.lookup node).getD []

/-- Link a node to another one, once. -/
def link (adj : Adjacency) (node target : String) : Adjacency :=
  let targets := adj.linked node
  Fields.insert adj node (if targets.contains target then targets else targets ++ [target])

end Adjacency

/-- The links of a schema, followed forwards and backwards. -/
structure SchemaGraph where
  outgoing : Adjacency
  incoming : Adjacency

namespace SchemaGraph

/-- The names that a declaration mentions. -/
def mentions : Declaration → List String
  | .table t => [t.name]
  | .edge e => e.name :: (e.sources ++ e.targets)

/-- The hops of an edge: from each source to the edge, from the edge to each target. -/
def hops (e : EdgeDecl) : List (String × String) :=
  e.sources.map (fun s => (s, e.name)) ++ e.targets.map fun t => (e.name, t)

/-- The graph of declarations that have different names. -/
def build (decls : List Declaration) : SchemaGraph :=
  let nodes := (decls.flatMap mentions).foldl Adjacency.touch []
  let links := (decls.filterMap Declaration.edge?).flatMap hops
  { outgoing := links.foldl (fun adj (a, b) => adj.link a b) nodes
    incoming := links.foldl (fun adj (a, b) => adj.link b a) nodes }

/-- What one hop forwards reaches. -/
def next (g : SchemaGraph) (table : String) : List String := g.outgoing.linked table

/-- What one hop backwards reaches. -/
def previous (g : SchemaGraph) (table : String) : List String := g.incoming.linked table

def contains (g : SchemaGraph) (table : String) : Bool := Fields.contains g.outgoing table

/-- All nodes. -/
def tables (g : SchemaGraph) : List String := Fields.names g.outgoing

/-- The nodes that lead from `source` to `target` in two hops. -/
def edgesBetween (g : SchemaGraph) (source target : String) : List String :=
  (g.next source).filter fun e => (g.next e).contains target

/-- Links as a JSON object. -/
def encodeLinks (adj : Adjacency) : Json :=
  .object (adj.map fun (node, targets) => (node, Json.strings targets))

def encode (g : SchemaGraph) : Json :=
  .object [("to", encodeLinks g.outgoing), ("from", encodeLinks g.incoming)]

end SchemaGraph

end GraphQuery
