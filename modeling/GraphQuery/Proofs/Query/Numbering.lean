import GraphQuery.Proofs.Query.Legible

/-!
# Numbered values

The text of legible pieces is read as what it was made of. So its placeholders are the names of its
variables, from left to right, and numbering the values from somewhere else renumbers the
placeholders and changes nothing else.
-/

namespace GraphQuery

open Reading

namespace Reading

variable {ps : List Piece}

/-- The text of legible pieces is read as the pieces are meant. -/
theorem Legible.lexemes (legible : Legible ps) (n : Nat) :
    lexemes (Compiled.numberFrom n ps).text = lexemesFrom n ps := by
  have read := legible.reads n [] (by simp [Delimited])
  rwa [List.append_nil, read_outside_nil, List.append_nil] at read

/-- Among the parameters that pieces are read as, those of values are no reserved ones, and all
others are. -/
theorem parameters_lexemesFrom (fixed : ∀ text, .text text ∈ ps →
      ∀ name, .parameter name ∈ Reading.lexemes text → name ∈ reserved) (n : Nat) :
    ((lexemesFrom n ps).filterMap Lexeme.parameter?).filter (fun name => !reserved.contains name) =
      (List.range' n (Piece.values ps).length).map variableName := by
  induction ps generalizing n with
  | nil => rfl
  | cons p rest ih =>
      have others := ih fun text member => fixed text (List.mem_cons_of_mem p member)
      cases p with
      | text text =>
          -- All parameters in text are reserved, so the filter leaves none of them.
          have none : ((Reading.lexemes text).filterMap Lexeme.parameter?).filter
              (fun name => !reserved.contains name) = [] := by
            rw [List.filter_eq_nil_iff]
            intro name member
            obtain ⟨lexeme, found, isParameter⟩ := List.mem_filterMap.mp member
            cases lexeme with
            | char c => cases isParameter
            | parameter other =>
                cases isParameter
                have known := fixed text List.mem_cons_self name found
                simpa using known
          rw [lexemesFrom, List.filterMap_append, List.filter_append, none, others n]
          rfl
      | value v =>
          -- The parameter of a value is its variable, which the filter keeps.
          have kept : (!reserved.contains (variableName n)) = true := by
            simpa using variableName_not_reserved n
          rw [lexemesFrom, List.filterMap_cons, Lexeme.parameter?, List.filter_cons, kept,
            if_pos rfl, others (n + 1), Piece.values, List.length_cons, List.range'_succ,
            List.map_cons]

/-- A text with values numbered from `n` on has just their placeholders, in order. -/
theorem Legible.placeholders (legible : Legible ps) (n : Nat) :
    placeholders (Compiled.numberFrom n ps).text =
      (List.range' n (Piece.values ps).length).map variableName := by
  rw [Reading.placeholders, legible.lexemes, parameters_lexemesFrom legible.fixed]

/-- Text without placeholders is renumbered to itself. -/
theorem shift_lexemes {text : String}
    (fixed : ∀ name, .parameter name ∈ Reading.lexemes text → name ∈ reserved) (offset : Nat) :
    (Reading.lexemes text).map (Lexeme.shift offset) = Reading.lexemes text := by
  have same : ∀ lexeme ∈ Reading.lexemes text, lexeme.shift offset = lexeme := by
    intro lexeme member
    cases lexeme with
    | char c => rfl
    | parameter name =>
        rw [Lexeme.shift, shiftName_of_reserved offset (fixed name member)]
  rw [List.map_congr_left same, List.map_id']

/-- What pieces are read as depends on where the numbering starts by a shift alone. -/
theorem shift_lexemesFrom (fixed : ∀ text, .text text ∈ ps →
      ∀ name, .parameter name ∈ Reading.lexemes text → name ∈ reserved) (offset n : Nat) :
    (lexemesFrom n ps).map (Lexeme.shift offset) = lexemesFrom (n + offset) ps := by
  induction ps generalizing n with
  | nil => rfl
  | cons p rest ih =>
      have others := ih fun text member => fixed text (List.mem_cons_of_mem p member)
      cases p with
      | text text =>
          rw [lexemesFrom, lexemesFrom, List.map_append, others n,
            shift_lexemes (fixed text List.mem_cons_self)]
      | value v =>
          rw [lexemesFrom, lexemesFrom, List.map_cons, others (n + 1), Lexeme.shift,
            shiftName_variableName, Nat.add_right_comm]

/-- What pieces are meant to be read as spells their text. -/
theorem chars_lexemesFrom (n : Nat) (ps : List Piece) :
    (lexemesFrom n ps).flatMap Lexeme.chars = chars n ps := by
  induction ps generalizing n with
  | nil => rfl
  | cons p rest ih =>
      cases p with
      | text text =>
          rw [lexemesFrom, List.flatMap_append, ih n, chars_lexemes, chars_text]
      | value v =>
          rw [lexemesFrom, List.flatMap_cons, ih (n + 1), chars_value]
          rfl

theorem Legible.renumber (legible : Legible ps) (offset n : Nat) :
    renumber offset (Compiled.numberFrom n ps).text =
      (Compiled.numberFrom (n + offset) ps).text := by
  have shifted : (Reading.lexemes (Compiled.numberFrom n ps).text).flatMap
      (fun lexeme => (lexeme.shift offset).chars) = chars (n + offset) ps := by
    rw [legible.lexemes, ← chars_lexemesFrom, ← shift_lexemesFrom legible.fixed,
      List.flatMap_map]
  rw [Reading.renumber, shifted]
  exact String.ofList_toList

end Reading

namespace Compiled

theorem shift_valuesFrom (offset n : Nat) (ps : List Piece) :
    (valuesFrom n ps).map (fun (name, v) => (shiftName offset name, v)) =
      valuesFrom (n + offset) ps := by
  induction ps generalizing n with
  | nil => rfl
  | cons p rest ih =>
      cases p with
      | text s => exact ih n
      | value v =>
          rw [valuesFrom, valuesFrom, List.map_cons, ih (n + 1)]
          show (shiftName offset (variableName n), v) :: _ = _
          rw [shiftName_variableName, Nat.add_right_comm]

/-- Numbering legible pieces from further on is numbering them and shifting the numbers. -/
theorem shift_numberFrom {ps : List Piece} (legible : Legible ps) (offset n : Nat) :
    (numberFrom n ps).shift offset = numberFrom (n + offset) ps := by
  have text := legible.renumber offset n
  have vars := shift_valuesFrom offset n ps
  unfold shift
  rw [text]
  exact congrArg (Compiled.mk _) vars

end Compiled

end GraphQuery
