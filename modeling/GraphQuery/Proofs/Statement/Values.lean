import GraphQuery.Proofs.Query.Pieces
import GraphQuery.Statement.Values

/-!
# Values stand where they are written

The values among the pieces of a statement are the values of its clauses, in their order, at every
place and however its sub-queries are nested.
-/

namespace GraphQuery

namespace Piece

@[simp] theorem values_nil : values [] = [] := rfl

@[simp] theorem values_text (s : String) (ps : List Piece) :
    values (.text s :: ps) = values ps := rfl

@[simp] theorem values_value (v : Json) (ps : List Piece) :
    values (.value v :: ps) = v :: values ps := rfl

@[simp] theorem values_separated (separator : String) (groups : List (List Piece)) :
    values (separated separator groups) = (groups.map values).flatten := by
  induction groups with
  | nil => rfl
  | cons group rest ih =>
      cases rest with
      | nil => simp [separated]
      | cons next more =>
          rw [separated, values_append, values_text, ih]
          · rfl
          · intro h
            cases h

@[simp] theorem values_between (opening closing : String) (ps : List Piece) :
    values (between opening closing ps) = values ps := by
  simp [between]

@[simp] theorem values_join (base : List Piece) (segment : String) :
    values (join base segment) = values base := by
  unfold join
  split
  · rfl
  · simp

end Piece

namespace Term

open Piece

@[simp] theorem values_enclose (t : Term) (ps : List Piece) :
    Piece.values (t.enclose ps) = Piece.values ps := by
  unfold enclose
  split
  · rfl
  · simp

@[simp] theorem values_operandPieces (scopes : Scopes) (t : Term) :
    Piece.values (t.operandPieces scopes) = Piece.values (t.pieces scopes) := values_enclose t _

theorem values_objectLiteral (entries : List (List Piece)) :
    Piece.values (objectLiteral entries) = (entries.map Piece.values).flatten := by
  unfold objectLiteral
  split
  · next empty =>
      rw [List.isEmpty_iff.mp empty]
      rfl
  · rw [values_between, values_separated]

/-- An application is written with the values of its receiver and of its arguments in their order. -/
theorem values_application (form : Form) (scopes : Scopes) (t : Term) (written : List Piece)
    (ts : List Term) :
    Piece.values (application form t written ts (ts.map (pieces scopes))) =
      form.values (Piece.values written) ((ts.map (pieces scopes)).map Piece.values) := by
  cases form with
  | between token =>
      have operands : (ts.map (operandPieces scopes)).map Piece.values =
          (ts.map (pieces scopes)).map Piece.values := by
        simp
      rw [application, zipWith_enclose, values_append, values_enclose, values_text,
        values_separated, operands]
      rfl
  | before token =>
      rw [application, values_text, values_enclose]
      rfl
  | call path => simp [application, Form.values]
  | callSeparated path => simp [application, Form.values, List.map_take]

mutual

/-- At every place a term is written with its values in their order. -/
theorem values_pieces (scopes : Scopes) (t : Term) : Piece.values (t.pieces scopes) = t.values := by
  cases t with
  | record scope => rfl
  | input => rfl
  | fieldPath path => rfl
  | value v => rfl
  | get base key =>
      rw [pieces, values_join, values_enclose, values]
      exact values_pieces scopes base
  | apply op receiver arguments =>
      have each := values_piecesEach scopes arguments
      rw [piecesEach_eq_map] at each
      rw [pieces, piecesEach_eq_map, values_application, each, values_pieces scopes receiver, values]
  | object entries =>
      rw [pieces, values_objectLiteral, values_piecesEntries scopes entries, values]
  | array items =>
      rw [pieces, values_between, values_separated, values_piecesEach scopes items, values]
  | query scope layout =>
      rw [pieces, values_between, values]
      exact values_piecesLayout (scopes.enter scope) layout

theorem values_piecesEach (scopes : Scopes) (ts : List Term) :
    (piecesEach scopes ts).map Piece.values = valuesEach ts := by
  cases ts with
  | nil => rfl
  | cons t rest =>
      rw [piecesEach, List.map_cons, values_pieces scopes t, values_piecesEach scopes rest,
        valuesEach]

theorem values_piecesEntries (scopes : Scopes) (entries : List (String × Term)) :
    (piecesEntries scopes entries).map Piece.values = valuesEntries entries := by
  cases entries with
  | nil => rfl
  | cons entry rest =>
      obtain ⟨key, t⟩ := entry
      rw [piecesEntries, List.map_cons, values_text, values_pieces scopes t,
        values_piecesEntries scopes rest, valuesEntries]

theorem values_piecesPart (scopes : Scopes) (part : Part) :
    Piece.values (piecesPart scopes part) = valuesPart part := by
  cases part with
  | text s => rfl
  | value v => rfl
  | term t => exact values_pieces scopes t
  | operand t =>
      rw [piecesPart, values_enclose]
      exact values_pieces scopes t

theorem values_piecesLayout (scopes : Scopes) (layout : List Part) :
    Piece.values (piecesLayout scopes layout) = valuesLayout layout := by
  cases layout with
  | nil => rfl
  | cons part rest =>
      rw [piecesLayout, values_append, values_piecesPart scopes part,
        values_piecesLayout scopes rest, valuesLayout]

end

end Term

namespace Shape

mutual

/-- A shape is lowered to an expression of its values. -/
theorem values_lower (scope : ScopeId) (shape : Shape) : (shape.lower scope).values = shape.values := by
  cases shape with
  | expr e => rfl
  | value v => rfl
  | object entries => exact values_lowerEntries scope entries
  | array items => exact values_lowerItems scope items
termination_by structural shape

theorem values_lowerEntries (scope : ScopeId) (entries : List (String × Shape)) :
    (Term.valuesEntries ((lowerEntries scope entries).map fun (key, e) => (key, e.term))).flatten =
      valuesEntries entries := by
  match entries with
  | [] => rfl
  | (key, s) :: rest =>
      rw [lowerEntries, List.map_cons, Term.valuesEntries, List.flatten_cons, values_lowerEntries scope rest,
        valuesEntries, ← values_lower scope s]
      rfl
termination_by structural entries

theorem values_lowerItems (scope : ScopeId) (items : List Shape) :
    (Term.valuesEach ((lowerItems scope items).map Expr.term)).flatten = valuesItems items := by
  match items with
  | [] => rfl
  | s :: rest =>
      rw [lowerItems, List.map_cons, Term.valuesEach, List.flatten_cons, values_lowerItems scope rest,
        valuesItems, ← values_lower scope s]
      rfl
termination_by structural items

end

end Shape

namespace Layout

/-- The values of a layout, part by part. -/
abbrev values (layout : Layout) : List Json := Term.valuesLayout layout

variable (rest : Layout)

@[simp] theorem values_nil : values [] = [] := rfl

@[simp] theorem values_text (s : String) : values (.text s :: rest) = values rest := rfl

@[simp] theorem values_value (v : Json) : values (.value v :: rest) = v :: values rest := rfl

@[simp] theorem values_term (t : Term) : values (.term t :: rest) = t.values ++ values rest := rfl

@[simp] theorem values_operand (t : Term) :
    values (.operand t :: rest) = t.values ++ values rest := rfl

@[simp] theorem values_append (first second : Layout) :
    values (first ++ second) = values first ++ values second := by
  induction first with
  | nil => rfl
  | cons part rest ih =>
      show Term.valuesPart part ++ values (rest ++ second) =
        Term.valuesPart part ++ values rest ++ values second
      rw [ih, List.append_assoc]

@[simp] theorem values_separated (separator : String) (groups : List Layout) :
    values (separated separator groups) = (groups.map values).flatten := by
  induction groups with
  | nil => rfl
  | cons group rest ih =>
      cases rest with
      | nil => simp [separated]
      | cons next more =>
          rw [separated, values_append, values_text, ih]
          · rfl
          · intro h
            cases h

@[simp] theorem values_textIf (condition : Bool) (content : String) :
    values (textIf condition content) = [] := by
  cases condition <;> rfl

@[simp] theorem values_paths (keyword : String) (names : List String) :
    values (paths keyword names) = [] := by
  unfold paths
  split <;> rfl

@[simp] theorem values_limits (timeout : Option Duration) (parallel : Bool) :
    values (limits timeout parallel) = [] := by
  cases timeout <;> simp [limits]

@[simp] theorem values_onlyTarget (only : Bool) (target : Layout) :
    values (onlyTarget only target) = values target := by
  simp [onlyTarget]

@[simp] theorem values_condition (c : Option Expr) : values (condition c) = Expr.valuesOf c := by
  cases c with
  | none => rfl
  | some e => exact List.append_nil e.values

end Layout

section Clauses

open Layout

@[simp] theorem Target.values_layout (t : Target) : Layout.values t.layout = t.values := by
  cases t with
  | table name => rfl
  | record ref => rfl
  | expr e => exact List.append_nil e.values

@[simp] theorem Target.values_endpointLayout (t : Target) :
    Layout.values t.endpointLayout = t.values := by
  cases t with
  | table name => rfl
  | record ref => rfl
  | expr e => exact List.append_nil e.values

@[simp] theorem Assignment.values_layouts (as : List Assignment) :
    Layout.values (Assignment.layouts as) = Assignment.valuesOf as := by
  have one : ∀ a : Assignment, Layout.values a.layout = a.value.values := by
    intro a
    exact List.append_nil a.value.values
  rw [Assignment.layouts, Layout.values_separated, Assignment.valuesOf, List.flatMap_def,
    List.map_map]
  congr 1
  exact List.map_congr_left fun a _ => one a

@[simp] theorem PayloadSlot.values_layout (slot : PayloadSlot) :
    Layout.values slot.layout = slot.values := by
  cases slot with
  | none => rfl
  | some payload =>
      cases payload with
      | set assignments => exact Assignment.values_layouts assignments
      | _ => rfl

@[simp] theorem Trailer.values_layout (t : Trailer) : Layout.values t.layout = t.values := by
  obtain ⟨mode, timeout, parallel⟩ := t
  rw [Trailer.layout, Layout.values_append, Layout.values_limits, List.append_nil]
  cases mode with
  | none => rfl
  | some mode =>
      cases mode with
      | value e => exact List.append_nil e.values
      | _ => rfl

@[simp] theorem Projection.values_layout (p : Projection) :
    Layout.values (Select.projectionLayout p) = p.values := by
  cases p with
  | value e => exact List.append_nil e.values
  | _ => rfl

@[simp] theorem Select.values_orderLayout (order : List Order) :
    Layout.values (Select.orderLayout order) = order.flatMap fun o => o.criterion.values := by
  have one : ∀ o : Order, Layout.values o.layout = o.criterion.values := by
    intro o
    simp [Order.layout, Expr.values]
  cases order with
  | nil => rfl
  | cons first rest =>
      show Layout.values (Layout.separated ", " ((first :: rest).map Order.layout)) = _
      rw [Layout.values_separated, List.flatMap_def, List.map_map]
      congr 1
      exact List.map_congr_left fun o _ => one o

@[simp] theorem Select.values_boundLayout (keyword : String) (n : Option Nat) :
    Layout.values (Select.boundLayout keyword n) = (n.map fun n => Json.int n).toList := by
  cases n <;> rfl

@[simp] theorem Group.values_layout (g : Group) : Layout.values g.layout = [] := by
  cases g <;> rfl

@[simp] theorem InsertData.values_layout (data : InsertData) :
    Layout.values data.layout = data.values := by
  match data with
  | .empty => rfl
  | .documents [] => rfl
  | .documents [_] => rfl
  | .documents (_ :: _ :: _) => rfl
  | .rows fields lines =>
      have row : ∀ line : List Json, Layout.values (InsertData.rowLayout line) = line := by
        intro line
        have cells : (line.map fun v => [v]).flatten = line := by
          rw [← List.flatMap_def]
          exact List.flatMap_singleton' line
        simp [InsertData.rowLayout, Function.comp_def, cells]
      simp [InsertData.layout, InsertData.values, Function.comp_def, row]

@[simp] theorem Insert.values_onDuplicateLayout (as : List Assignment) :
    Layout.values (Insert.onDuplicateLayout as) = Assignment.valuesOf as := by
  cases as with
  | nil => rfl
  | cons first rest => exact Assignment.values_layouts (first :: rest)

end Clauses

namespace Statement

/-- The layout of a statement has the values of its clauses. -/
theorem values_layout (s : Statement) : s.layout.values = s.values := by
  cases s with
  | select s =>
      cases group : s.group with
      | none => simp [layout, Select.layout, values, group]
      | some g => simp [layout, Select.layout, values, group]
  | create c => simp [layout, Create.layout, values]
  | update u => simp [layout, Update.layout, values]
  | delete d => simp [layout, Delete.layout, values]
  | insert i => simp [layout, Insert.layout, values]
  | relate r => simp [layout, Relate.layout, values]

theorem values_pieces (scopes : Scopes) (s : Statement) :
    Piece.values (s.pieces scopes) = s.values := by
  rw [← values_layout]
  exact Term.values_piecesLayout (scopes.enter s.scope) s.layout

/-- A sub-query stands for the values of its statement. -/
theorem values_toExpr (db : Database) (s : Statement) : (s.toExpr db).values = s.values :=
  values_layout s

end Statement

end GraphQuery
