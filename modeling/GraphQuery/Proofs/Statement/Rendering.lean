import GraphQuery.Proofs.Construction.Respect
import GraphQuery.Proofs.Query.Nodes
import GraphQuery.Proofs.Statement.Layouts

/-!
# Rendering statements

A statement renders its clauses and then puts their texts together. This is the same as to render the
parts of its layout one after the other, so a statement from calls writes its pieces, on its own, as a
sub-query and in a transaction.
-/

namespace GraphQuery

open Rendering

/-! ## Clauses and their layouts -/

namespace Layout

variable (part : Part) (rest : Layout)

theorem render_nil : render [] = pure "" := rfl

theorem render_cons : render (part :: rest) = append (Term.renderPart part) (render rest) := rfl

theorem render_single : render [part] = Term.renderPart part := by
  rw [render_cons, render_nil, append_empty]

theorem render_append (first second : Layout) :
    render (first ++ second) = append (render first) (render second) := by
  induction first with
  | nil => rw [List.nil_append, render_nil, empty_append]
  | cons part rest ih => rw [List.cons_append, render_cons, render_cons, ih, append_assoc]

theorem render_separated {α : Type} {f : α → Rendering String} {layout : α → Layout}
    (same : ∀ a, (layout a).render = f a) (separator : String) (as : List α) :
    render (separated separator (as.map layout)) = joined separator f as := by
  induction as with
  | nil => rfl
  | cons a rest ih =>
      cases rest with
      | nil =>
          rw [joined_single]
          exact same a
      | cons b more =>
          rw [joined_cons_cons, ← ih, ← same a]
          exact render_append (layout a) _

theorem render_textIf (condition : Bool) (content : String) :
    render (textIf condition content) = pure (if condition then content else "") := by
  cases condition
  · rfl
  · exact render_single _

theorem render_paths (keyword : String) (names : List String) :
    render (paths keyword names) = pure (pathsText keyword names) := by
  unfold paths pathsText
  split
  · rfl
  · exact render_single _

theorem render_limits (timeout : Option Duration) (parallel : Bool) :
    render (limits timeout parallel) = pure (limitsText timeout parallel) := by
  unfold limits limitsText
  rw [render_append, render_textIf]
  cases timeout with
  | none => rw [render_nil, empty_append, String.empty_append]
  | some span => rw [render_single, Term.renderPart, append, pure_bind, pure_bind]

theorem render_condition (c : Option Expr) : render (condition c) = Expr.renderCondition c := by
  cases c with
  | none => rfl
  | some e => exact congrArg (append (pure " WHERE ")) (render_single _)

end Layout

/-! A clause binds its values first and is put together afterwards. The monad laws move the binding to
where its text is written. -/

section Clauses

open Layout Term

theorem Target.render_layout (t : Target) : t.layout.render = t.render := by
  cases t with
  | table name => exact render_single _
  | record ref =>
      simp only [layout, Target.render, render_cons, render_nil, renderPart, append, bind_assoc,
        pure_bind, String.append_assoc, String.append_empty]
  | expr e => exact render_single _

theorem Target.render_endpointLayout (t : Target) : t.endpointLayout.render = t.renderEndpoint := by
  cases t with
  | record ref =>
      have target := (Target.record ref).render_layout
      simp only [endpointLayout, renderEndpoint, List.cons_append, render_cons, render_append,
        render_nil, renderPart, target, append, bind_assoc, pure_bind, String.append_assoc,
        String.append_empty]
  | table name => exact (Target.table name).render_layout
  | expr e => exact (Target.expr e).render_layout

theorem ReturnMode.render_layout (m : ReturnMode) : m.layout.render = m.render := by
  cases m with
  | value e => exact congrArg (append (pure " RETURN VALUE ")) (render_single _)
  | _ => exact render_single _

theorem Trailer.render_layout (t : Trailer) : t.layout.render = t.render := by
  unfold layout Trailer.render
  cases t.mode with
  | none =>
      rw [render_append, render_limits]
      rfl
  | some mode =>
      rw [render_append, render_limits, ReturnMode.render_layout]
      rfl

theorem Assignment.render_layout (a : Assignment) : a.layout.render = a.render := by
  simp only [layout, Assignment.render, Expr.render, render_cons, render_nil, renderPart, append,
    pure_bind, bind_pure, String.append_assoc, String.append_empty]

theorem Payload.render_layout (p : Payload) : p.layout.render = p.render := by
  cases p with
  | set assignments =>
      exact congrArg (append (pure "SET ")) (render_separated Assignment.render_layout ", " assignments)
  | _ => exact congrArg (append (pure _)) (render_single _)

theorem PayloadSlot.render_layout (slot : PayloadSlot) :
    (PayloadSlot.layout slot).render = PayloadSlot.render slot := by
  cases slot with
  | none => rfl
  | some payload => exact congrArg (append (pure " ")) payload.render_layout

theorem Select.render_projectionLayout (p : Projection) :
    (projectionLayout p).render = renderProjection p := by
  cases p with
  | value e => exact congrArg (append (pure "VALUE ")) (render_single _)
  | _ => exact render_single _

theorem Order.render_layout (o : Order) : o.layout.render = o.render := by
  simp only [layout, Order.render, Expr.render, List.cons_append, render_cons, render_append,
    render_textIf, render_nil, renderPart, append, pure_bind, String.append_assoc, String.append_empty]

theorem Group.render_layout (g : Group) : g.layout.render = pure g.text := by
  cases g <;> exact render_single _

theorem Select.render_orderLayout (order : List Order) :
    (orderLayout order).render = renderOrder order := by
  cases order with
  | nil => rfl
  | cons first rest =>
      exact congrArg (append (pure " ORDER BY "))
        (render_separated Order.render_layout ", " (first :: rest))

theorem Select.render_boundLayout (keyword : String) (n : Option Nat) :
    (boundLayout keyword n).render = renderBound keyword n := by
  cases n with
  | none => rfl
  | some n => exact congrArg (append (pure keyword)) (render_single _)

theorem InsertData.render_rowLayout (row : List Json) : (rowLayout row).render = renderRow row := by
  have cells := render_separated (fun v => render_single (.value v)) ", " row
  simp only [rowLayout, renderRow, List.cons_append, render_cons, render_append, render_nil, cells,
    renderPart, joined, append, bind_assoc, pure_bind, String.append_assoc, String.append_empty]

theorem InsertData.render_layout (data : InsertData) : data.layout.render = data.render := by
  match data with
  | .empty => exact render_single _
  | .documents [] => exact render_single _
  | .documents [_] => exact render_single _
  | .documents (_ :: _ :: _) => exact render_single _
  | .rows fields lines =>
      exact congrArg (append (pure _)) (render_separated render_rowLayout ", " lines)

theorem Insert.render_onDuplicateLayout (as : List Assignment) :
    (onDuplicateLayout as).render = renderOnDuplicate as := by
  cases as with
  | nil => rfl
  | cons first rest =>
      exact congrArg (append (pure " ON DUPLICATE KEY UPDATE "))
        (render_separated Assignment.render_layout ", " (first :: rest))

end Clauses

/-! ## Statements -/

section Statements

open Layout Term

theorem Layout.render_onlyTarget (only : Bool) (t : Target) :
    (onlyTarget only t.layout).render =
      append (pure (if only then "ONLY " else "")) t.render := by
  rw [onlyTarget, render_append, render_textIf, t.render_layout]

theorem Select.renderStatement_eq (s : Select) : s.renderStatement = s.layout.render := by
  cases group : s.group
  all_goals
    simp only [layout, renderStatement, group, List.cons_append, render_cons, render_append,
      render_nil, Group.render_layout, render_projectionLayout, render_onlyTarget, render_condition,
      render_paths, render_orderLayout, render_boundLayout, render_limits, renderPart, append,
      bind_assoc, pure_bind, String.append_assoc]

theorem Create.renderStatement_eq (c : Create) : c.renderStatement = c.layout.render := by
  simp only [layout, renderStatement, List.cons_append, render_cons, render_append,
    render_onlyTarget, PayloadSlot.render_layout, Trailer.render_layout, renderPart, append,
    bind_assoc, pure_bind, String.append_assoc]

theorem Update.renderStatement_eq (u : Update) : u.renderStatement = u.layout.render := by
  simp only [layout, renderStatement, List.cons_append, render_cons, render_append,
    render_onlyTarget, PayloadSlot.render_layout, render_condition, Trailer.render_layout, renderPart,
    append, bind_assoc, pure_bind, String.append_assoc]

theorem Delete.renderStatement_eq (d : Delete) : d.renderStatement = d.layout.render := by
  simp only [layout, renderStatement, List.cons_append, render_cons, render_append,
    render_onlyTarget, render_condition, Trailer.render_layout, renderPart, append, bind_assoc,
    pure_bind, String.append_assoc]

theorem Insert.renderStatement_eq (i : Insert) : i.renderStatement = i.layout.render := by
  simp only [layout, renderStatement, List.cons_append, List.append_assoc, render_cons,
    render_append, render_textIf, InsertData.render_layout, render_onDuplicateLayout,
    Trailer.render_layout, renderPart, append, bind_assoc, pure_bind, String.append_assoc]

/-- The source is written before the target is rendered; to render both first changes nothing. -/
theorem Relate.renderStatement_eq (r : Relate) : r.renderStatement = r.layout.render := by
  simp only [layout, renderStatement, List.cons_append, render_cons, render_append, render_textIf,
    Target.render_endpointLayout, PayloadSlot.render_layout, Trailer.render_layout, renderPart, append,
    bind_assoc, pure_bind, String.append_assoc]

/-- A statement renders the parts of its layout in order. -/
theorem Statement.renderStatement_eq (s : Statement) : s.renderStatement = s.layout.render := by
  cases s with
  | select s => exact s.renderStatement_eq
  | create c => exact c.renderStatement_eq
  | update u => exact u.renderStatement_eq
  | delete d => exact d.renderStatement_eq
  | insert i => exact i.renderStatement_eq
  | relate r => exact r.renderStatement_eq

end Statements

/-! ## Statements from calls -/

/-- What the pairs of a relation say about the left and about the right ones. -/
theorem forall_mem_and_of_forall₂ {α β : Type} {P : α → Prop} {Q : β → Prop} {as : List α}
    {bs : List β} (each : List.Forall₂ (fun a b => P a ∧ Q b) as bs) :
    (∀ a ∈ as, P a) ∧ ∀ b ∈ bs, Q b := by
  refine ⟨forall_mem_of_forall₂ each fun _ _ both => both.1, ?_⟩
  exact forall_mem_of_forall₂ each.flip fun _ _ both => both.2

/-- The parts of related layouts are rendered if the related terms are. -/
theorem Layout.Related.rendered {a b : Layout}
    (related : Layout.Related (fun t u => t.Rendered ∧ u.Rendered) a b) :
    (∀ part ∈ a, part.Rendered) ∧ ∀ part ∈ b, part.Rendered := by
  refine forall_mem_and_of_forall₂ (related.imp ?_)
  intro part other both
  cases both with
  | text content => exact ⟨trivial, trivial⟩
  | value v w => exact ⟨trivial, trivial⟩
  | term both => exact both
  | operand both => exact both

/-- To be written as its pieces is a property of all terms that calls make, in both of two runs. -/
theorem Term.Rendered.congruence {rename : ScopeId → ScopeId} :
    Congruence rename fun t u => t.Rendered ∧ u.Rendered where
  record scope := ⟨.record scope, .record (rename scope)⟩
  input := ⟨.input, .input⟩
  fieldPath path := ⟨.fieldPath path, .fieldPath path⟩
  value v w := ⟨.value v, .value w⟩
  get key both := ⟨both.1.get key, both.2.get key⟩
  apply known receiver arguments := by
    obtain ⟨left, right⟩ := forall_mem_and_of_forall₂ arguments
    exact ⟨.apply known receiver.1 left, .apply known receiver.2 right⟩
  object entries := by
    have each := entries.imp fun entry entry' both => both.2
    obtain ⟨left, right⟩ := forall_mem_and_of_forall₂ each
    exact ⟨.object left, .object right⟩
  array items := by
    obtain ⟨left, right⟩ := forall_mem_and_of_forall₂ items
    exact ⟨.array left, .array right⟩
  query alike := by
    obtain ⟨left, right⟩ := alike.layout.rendered
    exact ⟨.query left _, .query right _⟩

namespace Statement

/-- At every place the statement writes its pieces. -/
def Rendered (s : Statement) : Prop := ∀ scopes, Writes scopes s.render (s.pieces scopes)

theorem rendered_of_layout {s : Statement} (rendered : ∀ part ∈ s.layout, part.Rendered) :
    s.Rendered := by
  intro scopes
  rw [render, renderStatement_eq]
  exact (Layout.writes rendered (scopes.enter s.scope)).within

/-- A statement as a sub-query renders what it renders on its own, in parentheses. -/
theorem node_toExpr (db : Database) (s : Statement) :
    (s.toExpr db).term.node = .token do return "(" ++ (← s.render) ++ ")" := by
  show Node.query s.scope s.layout.render = _
  rw [← renderStatement_eq]
  rfl

theorem Rendered.compile_eq {s : Statement} (rendered : s.Rendered) :
    s.compile = .ofPieces (s.pieces .outermost) := (rendered .outermost).compiled

/-! ## Transactions -/

/-- The lines of a transaction. -/
def lines (statements : List Statement) : List Piece :=
  statements.flatMap fun s => s.pieces .outermost ++ [.text ";\n"]

/-- The pieces of statements in one transaction. -/
def batchPieces (statements : List Statement) : List Piece :=
  .text "BEGIN TRANSACTION;\n" :: lines statements ++ [.text "COMMIT TRANSACTION;"]

/-- Render the lines of a transaction one after the other. -/
def renderLines : List Statement → Rendering String
  | [] => pure ""
  | s :: rest => append s.render (append (pure ";\n") (renderLines rest))

/-- Each statement is rendered behind the text of those before it. -/
theorem foldlM_renderLine (statements : List Statement) (text : String) :
    statements.foldlM renderLine text = append (pure text) (renderLines statements) := by
  induction statements generalizing text with
  | nil => exact (append_empty (pure text)).symm
  | cons s rest ih =>
      rw [List.foldlM_cons, funext ih]
      simp only [renderLine, renderLines, append, bind_assoc, pure_bind, String.append_assoc]

/-- The induction is on the statements: each finds the context as those before it leave it. -/
theorem writes_lines {statements : List Statement} (rendered : ∀ s ∈ statements, s.Rendered) :
    Writes .outermost (renderLines statements) (lines statements) := by
  induction statements with
  | nil => exact .empty
  | cons s rest ih =>
      have others := ih fun t member => rendered t (List.mem_cons_of_mem s member)
      have line : lines (s :: rest) = s.pieces .outermost ++ (.text ";\n" :: lines rest) := by
        rw [lines, List.flatMap_cons, List.append_assoc]
        rfl
      rw [line]
      exact (rendered s List.mem_cons_self .outermost).append (.cons ";\n" others)

theorem compileBatch_eq {statements : List Statement} (rendered : ∀ s ∈ statements, s.Rendered) :
    compileBatch statements = .ofPieces (batchPieces statements) := by
  have lines := Writes.cons "BEGIN TRANSACTION;\n" (writes_lines rendered)
  rw [← foldlM_renderLine] at lines
  exact (lines.append (.text "COMMIT TRANSACTION;")).compiled

end Statement

/-- The statements of two runs of the same calls write their pieces. -/
theorem SameStatement.rendered {rename : ScopeId → ScopeId} {s t : Statement}
    (same : SameStatement rename s t) : s.Rendered ∧ t.Rendered := by
  obtain ⟨left, right⟩ := (same.respect Term.Rendered.congruence).layout.rendered
  exact ⟨Statement.rendered_of_layout left, Statement.rendered_of_layout right⟩

end GraphQuery
