import GraphQuery.Proofs.Descriptor.OfValue
import GraphQuery.Proofs.Json.Spaces
import GraphQuery.Proofs.Query.Numbering
import GraphQuery.Proofs.Statement.Legible
import GraphQuery.Proofs.Statement.Values
import GraphQuery.Query.Denotation

/-!
# A lowered shape says what the shape does

A literal is written with placeholders at its leaves. With their values in their places its text is the JSON
text of the tree, but for spaces between the tokens.
-/

namespace GraphQuery

open Reading

/-! ## Values in the places of placeholders -/

/-- The characters of a piece, with the compact text of a value. -/
def Piece.filled : Piece → List Char
  | text s => s.toList
  | value v => v.compact.toList

namespace Reading

variable {vars : List (String × Json)} {ps : List Piece}

/-- In text that names no variable nothing is replaced. -/
theorem flatMap_filled_lexemes {text : String} (free : ∀ name ∈ reserved, vars.lookup name = none)
    (fixed : ∀ name, .parameter name ∈ Reading.lexemes text → name ∈ reserved) :
    (Reading.lexemes text).flatMap (Lexeme.filled vars) = text.toList := by
  have same : ∀ lexeme ∈ Reading.lexemes text, lexeme.filled vars = lexeme.chars := by
    intro lexeme member
    cases lexeme with
    | char c => rfl
    | parameter name => rw [Lexeme.filled, free name (fixed name member)]
  rw [List.flatMap_congr same, chars_lexemes]

theorem flatMap_filled_lexemesFrom (free : ∀ name ∈ reserved, vars.lookup name = none)
    (fixed : ∀ text, .text text ∈ ps → ∀ name, .parameter name ∈ Reading.lexemes text → name ∈ reserved)
    {n : Nat} (bound : ∀ name v, (name, v) ∈ Compiled.valuesFrom n ps → vars.lookup name = some v) :
    (lexemesFrom n ps).flatMap (Lexeme.filled vars) = ps.flatMap Piece.filled := by
  induction ps generalizing n with
  | nil => rfl
  | cons p rest ih =>
      have others {n : Nat} := @ih (fun text member => fixed text (List.mem_cons_of_mem p member)) n
      cases p with
      | text s =>
          rw [lexemesFrom, List.flatMap_append, List.flatMap_cons, others bound,
            flatMap_filled_lexemes free (fixed s List.mem_cons_self)]
          rfl
      | value v =>
          have here := bound _ v List.mem_cons_self
          rw [lexemesFrom, List.flatMap_cons, List.flatMap_cons, Lexeme.filled, here,
            others fun name w member => bound name w (List.mem_cons_of_mem _ member)]
          rfl

end Reading

namespace Compiled

variable {ps : List Piece}

theorem names_valuesFrom (n : Nat) (ps : List Piece) :
    Fields.names (valuesFrom n ps) = (List.range' n (Piece.values ps).length).map variableName := by
  rw [valuesFrom_eq, Fields.names, List.map_map, ← List.zipIdx_map_snd, List.map_map]
  rfl

theorem distinct_valuesFrom (n : Nat) (ps : List Piece) : Fields.Distinct (valuesFrom n ps) := by
  rw [Fields.Distinct, names_valuesFrom]
  exact List.Nodup.map variableName_injective List.nodup_range'

/-- The text of legible pieces with the values in their places. -/
theorem filled_ofPieces (legible : Legible ps) :
    (ofPieces ps).filled = String.ofList (ps.flatMap Piece.filled) := by
  have free : ∀ name ∈ reserved, (valuesFrom 0 ps).lookup name = none := by
    intro name known
    rw [Fields.lookup_eq_none, names_valuesFrom]
    intro member
    obtain ⟨n, _, rfl⟩ := List.mem_map.mp member
    exact variableName_not_reserved n known
  have bound : ∀ name v, (name, v) ∈ valuesFrom 0 ps → (valuesFrom 0 ps).lookup name = some v :=
    fun _ _ member => (distinct_valuesFrom 0 ps).lookup member
  rw [filled, ofPieces, legible.lexemes]
  exact congrArg String.ofList (flatMap_filled_lexemesFrom free legible.fixed bound)

end Compiled

/-! ## Literals -/

namespace Piece

theorem filled_between (opening closing : String) (ps : List Piece) :
    (between opening closing ps).flatMap filled =
      opening.toList ++ ps.flatMap filled ++ closing.toList := by
  rw [between, List.cons_append, List.flatMap_cons, List.flatMap_append, List.flatMap_singleton,
    List.append_assoc]
  rfl

theorem filled_separated (separator : String) (groups : List (List Piece)) :
    (separated separator groups).flatMap filled =
      separator.toList.intercalate (groups.map (·.flatMap filled)) := by
  induction groups with
  | nil => rfl
  | cons group rest ih =>
      cases rest with
      | nil => exact (List.append_nil _).symm
      | cons next more =>
          rw [separated, List.flatMap_append, List.flatMap_cons, ih, List.map_cons, List.map_cons, List.map_cons,
            List.intercalate_cons_cons, List.append_assoc]
          · rfl
          · intro last
            cases last

end Piece

/-- The expression is written as the text of a JSON value, and its shape accepts it. -/
structure Expr.Denotes (e : Expr) (v : Json) : Prop where
  legible : e.term.Legible
  written : ∀ scopes, Json.Squeezes ((e.term.pieces scopes).flatMap Piece.filled) v.compact.toList
  valid : v.distinct = true → e.type.validate v = true

namespace Expr.Denotes

variable {scope : ScopeId}

theorem value (scope : ScopeId) (v : Json) : (Expr.ofValue scope v).Denotes v where
  legible _ := .value v
  written scopes := by
    have alone : ((Expr.ofValue scope v).term.pieces scopes).flatMap Piece.filled = v.compact.toList :=
      List.append_nil _
    rw [alone]
    exact Json.squeezes_compact v
  valid := Descriptor.validate_ofValue

section Array

variable {es : List Expr} {vs : List Json}

theorem check_items (each : List.Forall₂ Expr.Denotes es vs) (parts : ∀ v ∈ vs, v.distinct = true) :
    Descriptor.checkItems (es.map Expr.type) vs = true := by
  induction each with
  | nil => rfl
  | cons here _ ih =>
      obtain ⟨first, others⟩ := List.forall_mem_cons.mp parts
      rw [List.map_cons, Descriptor.checkItems, ih others, Bool.and_true]
      exact here.valid first

theorem array (each : List.Forall₂ Expr.Denotes es vs) : (Shape.arrayExpr scope es).Denotes (.array vs) where
  legible := by
    refine Term.Legible.array ?_
    rw [List.forall_mem_map]
    exact forall_mem_of_forall₂ each fun _ _ denotes => denotes.legible
  written scopes := by
    have items : List.Forall₂ (fun cs v => Json.Squeezes cs v.compact.toList)
        ((Term.piecesEach scopes (es.map Expr.term)).map (·.flatMap Piece.filled)) vs := by
      rw [Term.piecesEach_eq_map, List.forall₂_map_left_iff, List.forall₂_map_left_iff,
        List.forall₂_map_left_iff]
      exact each.imp fun _ _ denotes => denotes.written scopes
    rw [Shape.arrayExpr, Term.pieces, Piece.filled_between, Piece.filled_separated]
    exact Json.Squeezes.array (.before_space (by decide)) items
  valid dictionary := by
    rw [Json.distinct, Json.distinctItems_iff] at dictionary
    exact check_items each dictionary

end Array

section Object

variable {es : List (String × Expr)} {fields : List (String × Json)}

theorem check_fields {entries : List (String × Json)}
    (each : List.Forall₂ (fun e field => e.1 = field.1 ∧ e.2.Denotes field.2) es fields)
    (there : ∀ name v, (name, v) ∈ fields → entries.lookup name = some v ∧ v.distinct = true) :
    Descriptor.checkFields (es.map fun (key, e) => (key, e.type)) entries = true := by
  induction each with
  | nil => rfl
  | @cons e field _ _ here _ ih =>
      obtain ⟨name, e⟩ := e
      obtain ⟨_, v⟩ := field
      obtain ⟨rfl, denotes⟩ := here
      rw [Fields.forall_mem_cons] at there
      rw [List.map_cons, Descriptor.checkFields, ih there.2, Bool.and_true, there.1.1]
      exact denotes.valid there.1.2

theorem object (each : List.Forall₂ (fun e field => e.1 = field.1 ∧ e.2.Denotes field.2) es fields) :
    (Shape.objectExpr scope es).Denotes (.object fields) where
  legible := by
    refine Term.Legible.object ?_
    rw [List.forall_mem_map]
    exact forall_mem_of_forall₂ each fun _ _ entry => entry.2.legible
  written scopes := by
    have entries : List.Forall₂ (fun cs field => Json.Squeezes cs (Json.entryText field))
        ((Term.piecesEntries scopes (es.map fun (key, e) => (key, e.term))).map (·.flatMap Piece.filled))
        fields := by
      rw [Term.piecesEntries_eq_map, List.forall₂_map_left_iff, List.forall₂_map_left_iff,
        List.forall₂_map_left_iff]
      refine each.imp ?_
      rintro ⟨_, e⟩ ⟨name, v⟩ ⟨rfl, denotes⟩
      rw [List.flatMap_cons, Piece.filled, String.toList_append]
      exact ((Json.Squeezes.quote _).append (.before_space (by decide))).append (denotes.written scopes)
    rw [Shape.objectExpr, Term.pieces, Term.objectLiteral]
    split
    · next empty =>
        -- The braces of an empty object touch.
        obtain rfl : es = [] := by simpa using empty
        cases each
        exact .of_solid (Json.solid_of_all rfl)
    · rw [Piece.filled_between, Piece.filled_separated]
      exact Json.Squeezes.object (.before_space (c := '\x7b') (by decide))
        (.behind_space (c := '\x7d') (by decide)) (.before_space (by decide)) entries
  valid dictionary := by
    obtain ⟨once, parts⟩ := Json.distinct_object.mp dictionary
    exact check_fields each fun name v member => ⟨once.lookup member, parts name v member⟩

end Object

end Expr.Denotes

namespace Shape

mutual

/-- A shape of raw values is lowered to a literal of the value that it spells. -/
theorem denotes_lower (scope : ScopeId) (shape : Shape) {v : Json} (reads : shape.json? = some v) :
    (shape.lower scope).Denotes v := by
  cases shape with
  | expr e => cases reads
  | value x =>
      cases reads
      exact .value scope v
  | object entries =>
      obtain ⟨fields, each, rfl⟩ := Option.map_eq_some_iff.mp reads
      exact .object (denotes_lowerEntries scope entries each)
  | array items =>
      obtain ⟨vs, each, rfl⟩ := Option.map_eq_some_iff.mp reads
      exact .array (denotes_lowerItems scope items each)
termination_by structural shape

theorem denotes_lowerEntries (scope : ScopeId) (entries : List (String × Shape))
    {fields : List (String × Json)} (reads : jsonEntries? entries = some fields) :
    List.Forall₂ (fun e field => e.1 = field.1 ∧ e.2.Denotes field.2) (lowerEntries scope entries)
      fields := by
  match entries with
  | [] =>
      cases reads
      exact .nil
  | (key, s) :: rest =>
      rw [jsonEntries?] at reads
      split at reads
      · next v others here behind =>
          cases reads
          exact .cons ⟨rfl, denotes_lower scope s here⟩ (denotes_lowerEntries scope rest behind)
      · cases reads
termination_by structural entries

theorem denotes_lowerItems (scope : ScopeId) (items : List Shape) {vs : List Json}
    (reads : jsonItems? items = some vs) :
    List.Forall₂ Expr.Denotes (lowerItems scope items) vs := by
  match items with
  | [] =>
      cases reads
      exact .nil
  | s :: rest =>
      rw [jsonItems?] at reads
      split at reads
      · next v others here behind =>
          cases reads
          exact .cons (denotes_lower scope s here) (denotes_lowerItems scope rest behind)
      · cases reads
termination_by structural items

end

/-- **A lowered shape says what the shape does.** For a tree of raw values, at every place: the text with all
values in their places is the compact text of the tree, but for spaces between tokens. The variables are the
leaves in order. The shape of the expression accepts the tree, unless a key is named twice in it. -/
theorem lower_denotes {shape : Shape} {v : Json} (reads : shape.json? = some v) (scope : ScopeId)
    (scopes : Scopes) :
    let e := shape.lower scope
    let c := Compiled.ofPieces (e.term.pieces scopes)
    Json.withoutSpaces c.filled = v.compact ∧
      c.vars = shape.values.zipIdx.map (fun entry => (variableName entry.2, entry.1)) ∧
      (v.distinct = true → e.type.validate v = true) := by
  intro e c
  have denotes : e.Denotes v := denotes_lower scope shape reads
  refine ⟨?_, ?_, denotes.valid⟩
  · rw [Compiled.filled_ofPieces (denotes.legible scopes)]
    exact (denotes.written scopes).withoutSpaces
  · have values : Piece.values (e.term.pieces scopes) = shape.values := by
      rw [Term.values_pieces, ← values_lower scope shape]
      rfl
    rw [← values]
    exact Compiled.valuesFrom_eq 0 _

end Shape

namespace Menu

/-- Empty containers, keys and texts with quotes and spaces, a text that looks like a placeholder, and a value
that is an object itself. -/
def shape : Shape :=
  .object [("", .array [.object [], .array [], .value .null]),
    ("the \"dish\"", .value (.string "soup \\ \"$_v0\"")),
    ("more", .array [.object [("price", .value (.int (-3)))],
      .value (.object [("with bread", .bool true), ("", .array [.int 1, .string " "])])])]

def value : Json :=
  .object [("", .array [.object [], .array [], .null]),
    ("the \"dish\"", .string "soup \\ \"$_v0\""),
    ("more", .array [.object [("price", .int (-3))],
      .object [("with bread", .bool true), ("", .array [.int 1, .string " "])]])]

end Menu

/-- The menu is written with four placeholders. -/
theorem Shape.lower_denotes_menu :
    Menu.shape.json? = some Menu.value ∧ Menu.value.distinct = true ∧
      Json.withoutSpaces (Menu.shape.lower ⟨0⟩).compile.filled = Menu.value.compact ∧
      (Menu.shape.lower ⟨0⟩).compile.vars = [("_v0", .null), ("_v1", .string "soup \\ \"$_v0\""),
        ("_v2", .int (-3)),
        ("_v3", .object [("with bread", .bool true), ("", .array [.int 1, .string " "])])] ∧
      (Menu.shape.lower ⟨0⟩).type.validate Menu.value = true := by
  have reads : Menu.shape.json? = some Menu.value := rfl
  have dictionary : Menu.value.distinct = true := by decide
  obtain ⟨text, vars, valid⟩ := lower_denotes reads ⟨0⟩ (Scopes.outermost.enter ⟨0⟩)
  exact ⟨reads, dictionary, text, vars, valid dictionary⟩

end GraphQuery
