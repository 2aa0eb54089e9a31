import GraphQuery.Proofs.Fields.Lookup
import GraphQuery.Proofs.Schema.Surviving

/-!
# The graph of a schema

Linking keeps an adjacency a dictionary without repeated nodes in its lists, and adds one link. So the
graph of a schema has exactly the hops of the edges that survive, in both directions, and exactly the
names that the surviving declarations mention.
-/

namespace GraphQuery

namespace Adjacency

/-! ## Entering and linking nodes -/

/-- Every node once, and no node linked to another one twice. -/
def Tidy (adj : Adjacency) : Prop := Fields.DictionaryOf List.Nodup adj

variable {adj : Adjacency} {node other target x y : String} {links : List (String × String)}

theorem Tidy.nodup_linked (tidy : Tidy adj) (node : String) : (adj.linked node).Nodup := by
  unfold linked
  cases found : adj.lookup node with
  | none => exact List.nodup_nil
  | some targets => exact tidy.2 node targets (Fields.mem_of_lookup found)

/-- A node that is not there yet is entered at the end. -/
theorem touch_eq (adj : Adjacency) (node : String) :
    adj.touch node =
      if node ∈ Fields.names adj then adj else Fields.insert adj node [] := by
  unfold touch
  by_cases there : node ∈ Fields.names adj
  · rw [if_pos there, if_pos (Fields.contains_iff_mem.mpr there)]
  · rw [if_neg there, if_neg (fun found => there (Fields.contains_iff_mem.mp found)),
      Fields.insert_of_fresh there]

theorem Tidy.touch (tidy : Tidy adj) (node : String) : Tidy (adj.touch node) := by
  rw [touch_eq]
  split
  · exact tidy
  · exact tidy.insert node List.nodup_nil

theorem mem_names_touch : x ∈ Fields.names (adj.touch node) ↔ x ∈ Fields.names adj ∨ x = node := by
  rw [touch_eq]
  split
  · next there =>
      refine (or_iff_left_of_imp ?_).symm
      rintro rfl
      exact there
  · next fresh =>
      rw [Fields.names_insert, if_neg fresh, List.mem_append, List.mem_singleton]

/-- Entering a node links nothing. -/
theorem linked_touch : (adj.touch node).linked x = adj.linked x := by
  rw [touch_eq]
  split
  · rfl
  · next fresh =>
      unfold linked
      by_cases same : x = node
      · subst same
        rw [Fields.lookup_insert_self, Fields.lookup_eq_none.mpr fresh]
        rfl
      · rw [Fields.lookup_insert_of_ne adj [] same]

theorem Tidy.link (tidy : Tidy adj) (node target : String) : Tidy (adj.link node target) := by
  -- Only the targets of the node change.
  refine tidy.insert node ?_
  have once := tidy.nodup_linked node
  split
  · exact once
  · next new =>
      rw [List.contains_iff_mem] at new
      rw [List.nodup_append]
      refine ⟨once, by simp, ?_⟩
      intro a there b same
      rw [List.mem_singleton.mp same]
      rintro rfl
      exact new there

/-- Linking a node that is there enters no node. -/
theorem names_link (there : node ∈ Fields.names adj) :
    Fields.names (adj.link node target) = Fields.names adj := by
  rw [link, Fields.names_insert, if_pos there]

theorem mem_linked_link :
    y ∈ (adj.link node target).linked x ↔ y ∈ adj.linked x ∨ x = node ∧ y = target := by
  by_cases same : x = node
  · subst same
    rw [link, linked, Fields.lookup_insert_self, Option.getD_some]
    split
    · next there =>
        rw [List.contains_iff_mem] at there
        refine (or_iff_left_of_imp ?_).symm
        rintro ⟨-, rfl⟩
        exact there
    · simp
  · rw [link, linked, Fields.lookup_insert_of_ne adj _ same]
    simp [linked, same]

/-! ## Many of them -/

/-- Link nodes one after the other. -/
def connect (adj : Adjacency) (links : List (String × String)) : Adjacency :=
  links.foldl (fun adj (node, target) => adj.link node target) adj

theorem Tidy.foldl_touch (tidy : Tidy adj) (nodes : List String) :
    Tidy (nodes.foldl Adjacency.touch adj) := by
  induction nodes generalizing adj with
  | nil => exact tidy
  | cons node rest ih => exact ih (tidy.touch node)

theorem mem_names_foldl_touch (nodes : List String) :
    x ∈ Fields.names (nodes.foldl touch adj) ↔ x ∈ Fields.names adj ∨ x ∈ nodes := by
  induction nodes generalizing adj with
  | nil => simp
  | cons node rest ih => rw [List.foldl_cons, ih, mem_names_touch, List.mem_cons, or_assoc]

theorem linked_foldl_touch (nodes : List String) :
    (nodes.foldl touch adj).linked x = adj.linked x := by
  induction nodes generalizing adj with
  | nil => rfl
  | cons node rest ih => rw [List.foldl_cons, ih, linked_touch]

theorem Tidy.connect (tidy : Tidy adj) (links : List (String × String)) :
    Tidy (adj.connect links) := by
  induction links generalizing adj with
  | nil => exact tidy
  | cons hop rest ih => exact ih (tidy.link hop.1 hop.2)

/-- Linking nodes that are there enters none. -/
theorem names_connect (there : ∀ hop ∈ links, hop.1 ∈ Fields.names adj) :
    Fields.names (adj.connect links) = Fields.names adj := by
  induction links generalizing adj with
  | nil => rfl
  | cons hop rest ih =>
      -- What is there for the first link is there for the others.
      have kept : Fields.names (adj.link hop.1 hop.2) = Fields.names adj :=
        names_link (there hop List.mem_cons_self)
      rw [← kept]
      refine ih ?_
      intro next member
      rw [kept]
      exact there next (List.mem_cons_of_mem hop member)

theorem mem_linked_connect :
    y ∈ (adj.connect links).linked x ↔ y ∈ adj.linked x ∨ (x, y) ∈ links := by
  induction links generalizing adj with
  | nil => simp [connect]
  | cons hop rest ih =>
      rw [connect, List.foldl_cons]
      refine ih.trans ?_
      rw [mem_linked_link, List.mem_cons, or_assoc, Prod.ext_iff]

end Adjacency

/-! ## Declarations -/

namespace SchemaGraph

variable {decls : List Declaration} {x y : String}

/-- A hop leads from a source to the edge, or from the edge to a target. -/
theorem mem_hops {e : EdgeDecl} :
    (x, y) ∈ hops e ↔ x ∈ e.sources ∧ y = e.name ∨ x = e.name ∧ y ∈ e.targets := by
  simp only [hops, List.mem_append, List.mem_map, Prod.mk.injEq]
  refine or_congr ⟨?_, ?_⟩ ⟨?_, ?_⟩
  · rintro ⟨s, source, rfl, rfl⟩
    exact ⟨source, rfl⟩
  · rintro ⟨source, rfl⟩
    exact ⟨x, source, rfl, rfl⟩
  · rintro ⟨t, target, rfl, rfl⟩
    exact ⟨rfl, target⟩
  · rintro ⟨rfl, target⟩
    exact ⟨y, target, rfl, rfl⟩

theorem mem_mentions {d : Declaration} :
    x ∈ mentions d ↔ x = d.name ∨ ∃ e, d = .edge e ∧ (x ∈ e.sources ∨ x ∈ e.targets) := by
  cases d with
  | table t => simp [mentions, Declaration.name]
  | edge e => simp [mentions, Declaration.name]

/-- The names that declarations mention. -/
def nodes (decls : List Declaration) : Adjacency :=
  (decls.flatMap mentions).foldl Adjacency.touch []

/-- The hops of the edges among declarations. -/
def links (decls : List Declaration) : List (String × String) :=
  (decls.filterMap Declaration.edge?).flatMap hops

theorem outgoing_build : (build decls).outgoing = (nodes decls).connect (links decls) := rfl

/-- The graph backwards is that of the hops turned around. -/
theorem incoming_build :
    (build decls).incoming = (nodes decls).connect ((links decls).map Prod.swap) := by
  rw [Adjacency.connect, List.foldl_map]
  rfl

theorem mem_links :
    (x, y) ∈ links decls ↔ ∃ e, Declaration.edge e ∈ decls ∧ (x, y) ∈ hops e := by
  simp only [links, List.mem_flatMap, List.mem_filterMap]
  refine ⟨?_, ?_⟩
  · rintro ⟨e, ⟨d, member, isEdge⟩, hop⟩
    cases d with
    | table t => cases isEdge
    | edge e' =>
        cases isEdge
        exact ⟨e, member, hop⟩
  · rintro ⟨e, member, hop⟩
    exact ⟨e, ⟨.edge e, member, rfl⟩, hop⟩

theorem tidy_nodes (decls : List Declaration) : (nodes decls).Tidy :=
  Adjacency.Tidy.foldl_touch Fields.DictionaryOf.nil _

theorem mem_names_nodes :
    x ∈ Fields.names (nodes decls) ↔ ∃ d ∈ decls, x ∈ mentions d := by
  rw [nodes, Adjacency.mem_names_foldl_touch, List.mem_flatMap]
  simp

theorem linked_nodes : (nodes decls).linked x = [] := Adjacency.linked_foldl_touch _

/-- Both ends of a hop are mentioned. -/
theorem mem_names_nodes_of_mem_links (hop : (x, y) ∈ links decls) :
    x ∈ Fields.names (nodes decls) ∧ y ∈ Fields.names (nodes decls) := by
  obtain ⟨e, member, hop⟩ := mem_links.mp hop
  rw [mem_names_nodes, mem_names_nodes]
  rcases mem_hops.mp hop with ⟨source, rfl⟩ | ⟨rfl, target⟩
  · exact ⟨⟨_, member, by simp [mentions, source]⟩, ⟨_, member, by simp [mentions]⟩⟩
  · exact ⟨⟨_, member, by simp [mentions]⟩, ⟨_, member, by simp [mentions, target]⟩⟩

theorem names_outgoing_build :
    Fields.names (build decls).outgoing = Fields.names (nodes decls) := by
  rw [outgoing_build]
  exact Adjacency.names_connect fun hop member => (mem_names_nodes_of_mem_links member).1

theorem names_incoming_build :
    Fields.names (build decls).incoming = Fields.names (nodes decls) := by
  rw [incoming_build]
  refine Adjacency.names_connect ?_
  intro hop member
  obtain ⟨⟨a, b⟩, there, rfl⟩ := List.mem_map.mp member
  exact (mem_names_nodes_of_mem_links there).2

theorem mem_next_build : y ∈ (build decls).next x ↔ (x, y) ∈ links decls := by
  rw [next, outgoing_build, Adjacency.mem_linked_connect, linked_nodes]
  simp

theorem mem_previous_build : x ∈ (build decls).previous y ↔ (x, y) ∈ links decls := by
  rw [previous, incoming_build, Adjacency.mem_linked_connect, linked_nodes]
  simp

end SchemaGraph

/-- The graph of any declarations has the hops of the edges that survive and no others: from a source
to the edge, from the edge to a target. Backwards it has the same hops; no node stands in it twice and
none is linked to another one twice; and in either direction its nodes are, in one order, the names
that the surviving declarations mention. -/
theorem Database.graph_of_surviving (ds : List Declaration) :
    let g := (ofDeclarations ds).graph
    (∀ x y, y ∈ g.next x ↔ ∃ e : EdgeDecl, Declaration.Survives ds (.edge e) ∧
        (x ∈ e.sources ∧ y = e.name ∨ x = e.name ∧ y ∈ e.targets)) ∧
      (∀ x y, y ∈ g.next x ↔ x ∈ g.previous y) ∧
      g.outgoing.Tidy ∧ g.incoming.Tidy ∧
      Fields.names g.outgoing = Fields.names g.incoming ∧
      ∀ x, x ∈ Fields.names g.outgoing ↔ ∃ d, Declaration.Survives ds d ∧
        (x = d.name ∨ ∃ e, d = .edge e ∧ (x ∈ e.sources ∨ x ∈ e.targets)) := by
  intro g
  -- All nodes are entered before the first link is.
  have tidy := SchemaGraph.tidy_nodes (ofDeclarations ds).declarations
  refine ⟨?_, ?_, ?_, ?_, ?_, ?_⟩
  · intro x y
    show y ∈ (SchemaGraph.build _).next x ↔ _
    rw [SchemaGraph.mem_next_build, SchemaGraph.mem_links]
    simp only [mem_declarations, SchemaGraph.mem_hops]
  · intro x y
    show y ∈ (SchemaGraph.build _).next x ↔ x ∈ (SchemaGraph.build _).previous y
    rw [SchemaGraph.mem_next_build, SchemaGraph.mem_previous_build]
  · exact tidy.connect _
  · show (SchemaGraph.build _).incoming.Tidy
    rw [SchemaGraph.incoming_build]
    exact tidy.connect _
  · exact SchemaGraph.names_outgoing_build.trans SchemaGraph.names_incoming_build.symm
  · intro x
    show x ∈ Fields.names (SchemaGraph.build _).outgoing ↔ _
    rw [SchemaGraph.names_outgoing_build, SchemaGraph.mem_names_nodes]
    simp only [mem_declarations, SchemaGraph.mem_mentions]

end GraphQuery
