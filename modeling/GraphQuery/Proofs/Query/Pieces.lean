import GraphQuery.Query.Layout
import Mathlib.Data.List.Forall2

/-!
# Laws of pieces

The recursive functions on lists of terms and parts are maps over these lists, and writing a layout
distributes over its parts. Numbering pieces one after the other numbers the second ones from where
the first ones stop.
-/

namespace GraphQuery

namespace Term

variable (scopes : Scopes)

@[simp] theorem piecesEach_eq_map (ts : List Term) :
    piecesEach scopes ts = ts.map (pieces scopes) := by
  induction ts with
  | nil => rfl
  | cons t rest ih => rw [piecesEach, ih, List.map_cons]

@[simp] theorem piecesEntries_eq_map (entries : List (String × Term)) :
    piecesEntries scopes entries =
      entries.map fun entry => .text (Json.quote entry.1 ++ ": ") :: pieces scopes entry.2 := by
  induction entries with
  | nil => rfl
  | cons entry rest ih => rw [piecesEntries, ih, List.map_cons]

/-- The arguments of an operator are written as operands. -/
theorem zipWith_enclose (ts : List Term) :
    List.zipWith enclose ts (ts.map (pieces scopes)) = ts.map (operandPieces scopes) := by
  induction ts with
  | nil => rfl
  | cons t rest ih =>
      rw [List.map_cons, List.zipWith_cons_cons, ih, List.map_cons]
      rfl

end Term

namespace Layout

variable (scopes : Scopes)

@[simp] theorem pieces_nil : pieces scopes [] = [] := rfl

@[simp] theorem pieces_cons (part : Part) (rest : Layout) :
    pieces scopes (part :: rest) = Term.piecesPart scopes part ++ pieces scopes rest := rfl

@[simp] theorem pieces_append (first second : Layout) :
    pieces scopes (first ++ second) = pieces scopes first ++ pieces scopes second := by
  induction first with
  | nil => rfl
  | cons part rest ih =>
      rw [List.cons_append, pieces_cons, pieces_cons, ih, List.append_assoc]

/-- Separated layouts are written as separated groups of pieces. -/
theorem pieces_separated (separator : String) (groups : List Layout) :
    pieces scopes (separated separator groups) =
      Piece.separated separator (groups.map (pieces scopes)) := by
  induction groups with
  | nil => rfl
  | cons group rest ih =>
      cases rest with
      | nil => rfl
      | cons next more =>
          rw [separated, pieces_append, pieces_cons, ih]
          · rfl
          · intro h
            cases h

end Layout

namespace Piece

/-- The values of pieces, in order. -/
def values : List Piece → List Json
  | [] => []
  | .text _ :: rest => values rest
  | .value v :: rest => v :: values rest

@[simp] theorem values_append (ps qs : List Piece) :
    values (ps ++ qs) = values ps ++ values qs := by
  induction ps with
  | nil => rfl
  | cons p rest ih =>
      cases p with
      | text s => exact ih
      | value v => exact congrArg (v :: ·) ih

end Piece

namespace Compiled

/-- Pieces behind others are numbered from where those stop. -/
theorem textsFrom_append (n : Nat) (ps qs : List Piece) :
    textsFrom n (ps ++ qs) = textsFrom n ps ++ textsFrom (n + (Piece.values ps).length) qs := by
  induction ps generalizing n with
  | nil => rfl
  | cons p rest ih =>
      cases p with
      | text s => exact congrArg (s :: ·) (ih n)
      | value v =>
          rw [List.cons_append, textsFrom, textsFrom, ih (n + 1), Piece.values, List.length_cons]
          rw [Nat.add_right_comm, Nat.add_assoc, List.cons_append]

theorem valuesFrom_append (n : Nat) (ps qs : List Piece) :
    valuesFrom n (ps ++ qs) = valuesFrom n ps ++ valuesFrom (n + (Piece.values ps).length) qs := by
  induction ps generalizing n with
  | nil => rfl
  | cons p rest ih =>
      cases p with
      | text s => exact ih n
      | value v =>
          rw [List.cons_append, valuesFrom, valuesFrom, ih (n + 1), Piece.values, List.length_cons]
          rw [Nat.add_right_comm, Nat.add_assoc, List.cons_append]

/-- Pieces one after the other compile to their texts and to their variables one after the other. -/
theorem numberFrom_append (n : Nat) (ps qs : List Piece) :
    numberFrom n (ps ++ qs) =
      ⟨(numberFrom n ps).text ++ (numberFrom (n + (Piece.values ps).length) qs).text,
        (numberFrom n ps).vars ++ (numberFrom (n + (Piece.values ps).length) qs).vars⟩ := by
  unfold numberFrom
  rw [textsFrom_append, valuesFrom_append, String.join_append]

/-- The values of pieces stand under consecutive names. -/
theorem valuesFrom_eq (n : Nat) (ps : List Piece) :
    valuesFrom n ps =
      ((Piece.values ps).zipIdx n).map fun entry => (variableName entry.2, entry.1) := by
  induction ps generalizing n with
  | nil => rfl
  | cons p rest ih =>
      cases p with
      | text s => exact ih n
      | value v => exact congrArg ((variableName n, v) :: ·) (ih (n + 1))

theorem length_valuesFrom (n : Nat) (ps : List Piece) :
    (valuesFrom n ps).length = (Piece.values ps).length := by
  rw [valuesFrom_eq, List.length_map, List.length_zipIdx]

end Compiled

end GraphQuery
