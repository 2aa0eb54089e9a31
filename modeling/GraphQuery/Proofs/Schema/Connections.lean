import GraphQuery.Proofs.Schema.Graph
import Mathlib.Data.List.Nodup

/-!
# Edges between two nodes

Two hops lead from a source to a target of an edge, and the node between them is the edge. Tables and
edges are nodes of one graph, so two hops may also start at an edge or end at one, and then the node
between them is an edge for another reason, or a table. `Database.edgesBetween_of_surviving` says which
nodes two hops pass, and that none but connecting edges are passed between nodes that are no edges.
-/

namespace GraphQuery

variable {ds : List Declaration} {name edge node source target : String}

namespace Declaration

/-- An edge that survives has the node among its sources. -/
def StartsAt (ds : List Declaration) (edge node : String) : Prop :=
  ∃ e : EdgeDecl, Survives ds (.edge e) ∧ e.name = edge ∧ node ∈ e.sources

/-- An edge that survives has the node among its targets. -/
def EndsAt (ds : List Declaration) (edge node : String) : Prop :=
  ∃ e : EdgeDecl, Survives ds (.edge e) ∧ e.name = edge ∧ node ∈ e.targets

/-- An edge that survives leads from the source to the target. -/
def Connects (ds : List Declaration) (edge source target : String) : Prop :=
  ∃ e : EdgeDecl, Survives ds (.edge e) ∧ e.name = edge ∧ source ∈ e.sources ∧ target ∈ e.targets

/-- Of each name one declaration survives. -/
theorem Survives.unique {d e : Declaration} (first : Survives ds d) (second : Survives ds e)
    (same : d.name = e.name) : d = e := by
  rw [← Database.mem_declarations] at first second
  exact List.inj_on_of_nodup_map (Database.ofDeclarations ds).distinct_names first second same

/-- The edge that starts at the source is the one that ends at the target. -/
theorem connects_iff :
    Connects ds edge source target ↔ StartsAt ds edge source ∧ EndsAt ds edge target := by
  constructor
  · rintro ⟨e, survives, named, starts, ends⟩
    exact ⟨⟨e, survives, named, starts⟩, ⟨e, survives, named, ends⟩⟩
  · rintro ⟨⟨e, survives, named, starts⟩, ⟨f, survives', named', ends⟩⟩
    have same : Declaration.edge e = .edge f := survives.unique survives' (named.trans named'.symm)
    cases same
    exact ⟨e, survives, named, starts, ends⟩

end Declaration

namespace Database

open Declaration

/-- One hop enters an edge from a source, or leaves it to a target. -/
theorem mem_next_graph :
    name ∈ (ofDeclarations ds).graph.next node ↔ StartsAt ds name node ∨ EndsAt ds node name := by
  rw [graph, SchemaGraph.mem_next_build, SchemaGraph.mem_links]
  simp only [mem_declarations, SchemaGraph.mem_hops]
  constructor
  · rintro ⟨e, survives, ⟨starts, rfl⟩ | ⟨rfl, ends⟩⟩
    · exact .inl ⟨e, survives, rfl, starts⟩
    · exact .inr ⟨e, survives, rfl, ends⟩
  · rintro (⟨e, survives, rfl, starts⟩ | ⟨e, survives, rfl, ends⟩)
    · exact ⟨e, survives, .inl ⟨starts, rfl⟩⟩
    · exact ⟨e, survives, .inr ⟨rfl, ends⟩⟩

/-- Two hops pass the node. -/
theorem mem_edgesBetween_graph : name ∈ (ofDeclarations ds).graph.edgesBetween source target ↔
    (StartsAt ds name source ∨ EndsAt ds source name) ∧
      (StartsAt ds target name ∨ EndsAt ds name target) := by
  rw [SchemaGraph.edgesBetween, List.mem_filter, List.contains_iff_mem, mem_next_graph, mem_next_graph]

/-- What lies between two nodes, each once: an edge that connects them; an edge from the source that
the target, an edge itself, starts at; or, where the source is an edge itself, a node it ends at, if the
target is an edge that starts there or the node is an edge that ends at the target. So between nodes that
are no edges there are exactly the edges that connect them. -/
theorem edgesBetween_of_surviving (ds : List Declaration) (source target : String) :
    let between := (ofDeclarations ds).graph.edgesBetween source target
    between.Nodup ∧
      (∀ name, name ∈ between ↔ Connects ds name source target ∨
        StartsAt ds name source ∧ StartsAt ds target name ∨
        EndsAt ds source name ∧ (StartsAt ds target name ∨ EndsAt ds name target)) ∧
      ((∀ e, Survives ds (.edge e) → e.name ≠ source ∧ e.name ≠ target) →
        ∀ name, name ∈ between ↔ Connects ds name source target) := by
  intro between
  have passed : ∀ name, name ∈ between ↔ Connects ds name source target ∨
      StartsAt ds name source ∧ StartsAt ds target name ∨
      EndsAt ds source name ∧ (StartsAt ds target name ∨ EndsAt ds name target) := by
    intro name
    rw [mem_edgesBetween_graph, connects_iff]
    tauto
  refine ⟨?_, passed, ?_⟩
  · -- What one hop reaches is listed once, and some of that is left out.
    have tidy : (ofDeclarations ds).graph.outgoing.Tidy := (SchemaGraph.tidy_nodes _).connect _
    exact (tidy.nodup_linked source).filter _
  · intro tables name
    rw [passed]
    refine or_iff_left ?_
    rintro (⟨-, e, survives, named, -⟩ | ⟨⟨e, survives, named, -⟩, -⟩)
    · exact (tables e survives).2 named
    · exact (tables e survives).1 named

end Database

namespace Letters

/-- Users write letters, and letters go to users. -/
def declarations : List Declaration :=
  [.table ⟨"user", []⟩, .table ⟨"letter", []⟩, .edge ⟨"wrote", ["user"], ["letter"], []⟩,
    .edge ⟨"reached", ["letter"], ["user"], []⟩]

theorem survives_edge {e : EdgeDecl} (survives : Declaration.Survives declarations (.edge e)) :
    e = ⟨"wrote", ["user"], ["letter"], []⟩ ∨ e = ⟨"reached", ["letter"], ["user"], []⟩ := by
  rw [← Database.mem_declarations] at survives
  have all : (Database.ofDeclarations declarations).declarations = declarations := rfl
  rw [all] at survives
  simpa [declarations] using survives

end Letters

/-- Between a user and a letter there is the edge that connects them. -/
theorem Database.edgesBetween_user_letter :
    (∀ e, Declaration.Survives Letters.declarations (.edge e) →
      e.name ≠ "user" ∧ e.name ≠ "letter") ∧
    ∀ name, name ∈ (ofDeclarations Letters.declarations).graph.edgesBetween "user" "letter" ↔
      Declaration.Connects Letters.declarations name "user" "letter" := by
  have tables : ∀ e, Declaration.Survives Letters.declarations (.edge e) →
      e.name ≠ "user" ∧ e.name ≠ "letter" := by
    intro e survives
    rcases Letters.survives_edge survives with rfl | rfl <;> decide
  exact ⟨tables, (edgesBetween_of_surviving Letters.declarations "user" "letter").2.2 tables⟩

/-- Between the two edges there is a table, which connects nothing. -/
theorem Letters.table_between_edges :
    "letter" ∈ (Database.ofDeclarations declarations).graph.edgesBetween "wrote" "reached" ∧
      ¬ Declaration.Connects declarations "letter" "wrote" "reached" := by
  refine ⟨by decide, ?_⟩
  rintro ⟨e, survives, named, -, -⟩
  rcases survives_edge survives with rfl | rfl <;> simp at named

end GraphQuery
