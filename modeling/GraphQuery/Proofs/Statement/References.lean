import GraphQuery.Proofs.Construction.SameCalls
import GraphQuery.Proofs.Query.References
import GraphQuery.Proofs.Statement.Rendering
import GraphQuery.Statement.Basic

/-!
# References in nested statements

At every place of a statement, however deeply its sub-queries are nested, a record is written as the
current one or as an outer one. Two statements around a place can be told apart by their references;
more cannot.
-/

namespace GraphQuery

open Scopes (this outer inside)

/-- At a place of a statement, what stands there is written inside the statements around the place. A
record is the current one there, and its fields stand bare, if its statement is the innermost one; it
is an outer one if not. So two of these statements are referred to differently if one of them is the
innermost one, and all of them if there are two at most. -/
theorem Statement.references_at_place {s : Statement} {c : Term.Context} {t : Term}
    {around : List ScopeId} (place : c.plug t = .query s.scope s.layout)
    (enclosing : c.around [] = around) (distinct : around.Nodup) :
    Piece.between "(" ")" (s.pieces .outermost) =
        (c.frame [] (t.written (inside around))).pieces ∧
      (∀ a, (Term.record a).written (inside around) =
        ⟨true, [.text (if around.head? = some a then this else outer)]⟩) ∧
      (∀ a name, (Term.get (.record a) (.field name)).written (inside around) =
        ⟨true, [.text (if around.head? = some a then Name.ident name
          else outer ++ "." ++ Name.ident name)]⟩) ∧
      (∀ a b, a ≠ b → ((inside around).record a = (inside around).record b ↔
        around.head? ≠ some a ∧ around.head? ≠ some b)) ∧
      ((∀ a ∈ around, ∀ b ∈ around, a ≠ b → (inside around).record a ≠ (inside around).record b) ↔
        around.length ≤ 2) := by
  have written := c.written_plug [] t
  rw [place, enclosing, Scopes.inside_nil] at written
  refine ⟨?_, Term.written_record around, Term.written_record_field around,
    fun a b => Scopes.record_eq_iff, Scopes.unambiguous_iff distinct⟩
  rw [← written]
  rfl

namespace Nesting

/-- The people that appear among those that appear among those older than one of them: the innermost
of three statements refers to the record of the outermost or of the middle one. -/
def query (pick : Select → Select → Select) : Except UsageError Statement := do
  let a ← Select.of People.schema ⟨0⟩ (.table "person")
  let b ← Select.of People.schema ⟨1⟩ (.table "person")
  let c ← Select.of People.schema ⟨2⟩ (.table "person")
  let age (s : Select) := s.record.get People.schema (.field "age")
  let id (s : Select) := s.record.get People.schema (.field "id")
  let older := (age c).apply .gt [.expr (age (pick a b))]
  let inner := (Statement.select (c.filter older)).toExpr People.schema
  let middle := (Statement.select (b.filter ((id b).apply .inside [.expr inner]))).toExpr
    People.schema
  return .select (a.filter ((id a).apply .inside [.expr middle]))

/-- A place in the condition of a selection. -/
def condition (scope : ScopeId) (inner : Term.Context) : Term.Context :=
  .clause scope [.text "SELECT ", .text "*", .text " FROM ", .text "person", .text " WHERE "]
    inner []

/-- A place in the statement whose rows have to be listed. -/
def listed (scope : ScopeId) (inner : Term.Context) : Term.Context :=
  condition scope (.argument .inside (.get (.record scope) (.field "id")) [] inner [])

/-- Where the innermost statement refers to a record. -/
def place : Term.Context :=
  listed ⟨0⟩ (listed ⟨1⟩ (condition ⟨2⟩
    (.argument .gt (.get (.record ⟨2⟩) (.field "age")) [] (.get .hole (.field "age")) [])))

theorem around_place : place.around [] = [⟨2⟩, ⟨1⟩, ⟨0⟩] := rfl

theorem rendered_condition {t : Term} (rendered : t.Rendered) :
    ∀ part ∈ ([.text "SELECT ", .text "*", .text " FROM ", .text "person", .text " WHERE ", .term t] :
      Layout), part.Rendered := by
  simp [Part.Rendered, rendered]

theorem rendered_listed (scope : ScopeId) {t : Term} (rendered : t.Rendered) :
    (Term.apply .inside (.get (.record scope) (.field "id")) [t]).Rendered :=
  .apply (by decide) (.get _ (.record scope)) (by simpa using rendered)

/-- Whatever record stands in the innermost statement, the three write their pieces. -/
theorem rendered_of_place {a : ScopeId} {s : Statement}
    (standing : place.plug (.record a) = .query s.scope s.layout) : s.Rendered := by
  have layout := (Term.query.inj standing).2
  refine Statement.rendered_of_layout ?_
  rw [← layout]
  have age (scope : ScopeId) : (Term.get (.record scope) (.field "age")).Rendered :=
    .get _ (.record scope)
  have older : (Term.apply .gt (.get (.record ⟨2⟩) (.field "age"))
      [.get (.record a) (.field "age")]).Rendered :=
    .apply (by decide) (age ⟨2⟩) (by simpa using age a)
  have inner := Term.Rendered.query (rendered_condition older) ⟨2⟩
  have middle := Term.Rendered.query (rendered_condition (rendered_listed ⟨1⟩ inner)) ⟨1⟩
  exact rendered_condition (rendered_listed ⟨0⟩ middle)

end Nesting

/-- The innermost of three statements refers to the middle one and to the outermost one alike: two
statements that refer to different records compile to the same text. -/
theorem Nesting.ambiguous_reference :
    ∃ s t : Statement, Nesting.query (fun a _ => a) = .ok s ∧ Nesting.query (fun _ b => b) = .ok t ∧
      Nesting.place.plug (.record ⟨0⟩) = .query s.scope s.layout ∧
      Nesting.place.plug (.record ⟨1⟩) = .query t.scope t.layout ∧
      (Nesting.place.around []).Nodup ∧ ⟨0⟩ ∈ Nesting.place.around [] ∧
      ⟨1⟩ ∈ Nesting.place.around [] ∧
      (inside (Nesting.place.around [])).record ⟨0⟩ = "$parent" ∧
      (inside (Nesting.place.around [])).record ⟨1⟩ = "$parent" ∧
      s.compile = t.compile := by
  have compiled {s t : Statement} (first : place.plug (.record ⟨0⟩) = .query s.scope s.layout)
      (second : place.plug (.record ⟨1⟩) = .query t.scope t.layout)
      (same : s.pieces .outermost = t.pieces .outermost) : s.compile = t.compile := by
    rw [(rendered_of_place first).compile_eq, (rendered_of_place second).compile_eq, same]
  exact ⟨_, _, rfl, rfl, rfl, rfl, by decide, by decide, by decide, rfl, rfl, compiled rfl rfl rfl⟩

/-- Three statements are one too many. -/
theorem Nesting.references_at_innermost_place :
    ∃ s : Statement, Nesting.query (fun a _ => a) = .ok s ∧
      Nesting.place.plug (.record ⟨0⟩) = .query s.scope s.layout ∧
      Nesting.place.around [] = [⟨2⟩, ⟨1⟩, ⟨0⟩] ∧
      Piece.between "(" ")" (s.pieces .outermost) =
        (Nesting.place.frame [] ⟨true, [.text "$parent"]⟩).pieces ∧
      ¬ ∀ a ∈ [⟨2⟩, ⟨1⟩, ⟨0⟩], ∀ b ∈ [⟨2⟩, ⟨1⟩, ⟨0⟩], a ≠ b →
        (inside [⟨2⟩, ⟨1⟩, ⟨0⟩]).record a ≠ (inside [⟨2⟩, ⟨1⟩, ⟨0⟩]).record b := by
  obtain ⟨s, made, standing⟩ : ∃ s : Statement, Nesting.query (fun a _ => a) = .ok s ∧
      Nesting.place.plug (.record ⟨0⟩) = .query s.scope s.layout := ⟨_, rfl, rfl⟩
  obtain ⟨written, _, _, _, unambiguous⟩ :=
    Statement.references_at_place standing Nesting.around_place (by decide)
  refine ⟨s, made, standing, rfl, written, ?_⟩
  rw [unambiguous]
  decide

end GraphQuery
