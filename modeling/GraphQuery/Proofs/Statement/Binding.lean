import GraphQuery.Proofs.Query.Numbering
import GraphQuery.Proofs.Statement.Legible
import GraphQuery.Proofs.Statement.Rendering
import GraphQuery.Proofs.Statement.Values

/-!
# Placeholders and variables agree

A compiled statement has one placeholder for each of its raw values, numbered from left to right in
the order of its clauses, and binds under each name the value that stands there. No placeholder is
without a value, no variable is unused, and none is bound twice: rendering binds values in the order
in which their placeholders are written.
-/

namespace GraphQuery.Statement

/-- A statement that comes from calls can be read at every place. -/
theorem Built.legible {s : Statement} (built : s.Built) (scopes : Scopes) :
    Reading.Legible (s.pieces scopes) :=
  (built.respect Term.Legible.congruence).legible (scopes.enter s.scope)

/-- The statement writes its pieces. -/
theorem Built.rendered {s : Statement} (built : s.Built) : s.Rendered := (SameStatement.rendered built).1

/-- The placeholders in the text are exactly the names of the variables, each once and in order, and
the variables are the values of the statement in the order of its clauses. A statement inside it
brings its own values, which are bound while it is rendered there. -/
theorem variables_stand_in_order {s : Statement} (built : s.Built) :
    Reading.placeholders s.compile.text = (List.range s.values.length).map variableName ∧
      s.compile.vars = s.values.zipIdx.map (fun entry => (variableName entry.2, entry.1)) ∧
      ∀ db, (s.toExpr db).values = s.values ∧
        (s.toExpr db).term.node.render = do return "(" ++ (← s.render) ++ ")" := by
  have values := values_pieces .outermost s
  rw [built.rendered.compile_eq]
  refine ⟨?_, ?_, ?_⟩
  · have numbered := (built.legible .outermost).placeholders 0
    rw [values, ← List.range_eq_range'] at numbered
    exact numbered
  · have bound := Compiled.valuesFrom_eq 0 (s.pieces .outermost)
    rw [values] at bound
    exact bound
  · intro db
    rw [node_toExpr]
    exact ⟨values_toExpr db s, rfl⟩

/-- A sub-query with two values. -/
theorem variables_of_removal :
    ∃ s : Statement, People.removal ⟨0⟩ ⟨1⟩ (.int 18) 5 = .ok s ∧ s.Built ∧
      Reading.placeholders s.compile.text = ["_v0", "_v1"] ∧
      s.compile.vars = [("_v0", .int 18), ("_v1", .int 5)] := by
  refine ⟨_, rfl, ?_, ?_, ?_⟩
  · exact People.sameStatement_removal rfl rfl
  · exact (variables_stand_in_order (People.sameStatement_removal rfl rfl)).1
  · exact (variables_stand_in_order (People.sameStatement_removal rfl rfl)).2.1

end GraphQuery.Statement
