import GraphQuery.Proofs.Query.Pieces
import GraphQuery.Proofs.Query.Reading
import GraphQuery.Text.Duration

/-!
# Pieces that can be told apart in the text

Pieces are `Legible` when reading their text gives the lexemes of the texts among them and one
placeholder for each value, in front of anything that does not go on with a word. Legible pieces may
be put behind each other when the second ones do not start with a word. Brackets, separators,
keywords and names keep pieces legible.
-/

namespace GraphQuery.Reading

/-- Text that is plain. -/
abbrev PlainText (text : String) : Prop := Plain text.toList

namespace PlainText

theorem of_quiet {text : String} (quiet : text.toList.all isQuiet = true) :
    PlainText text :=
  Plain.of_quiet (List.all_eq_true.mp quiet)

theorem append {first second : String} (plain : PlainText first) (plain' : PlainText second) :
    PlainText (first ++ second) := by
  unfold PlainText
  rw [String.toList_append]
  exact Plain.append plain plain'

theorem intercalate {separator : String} (between : PlainText separator) {texts : List String}
    (plain : ∀ text ∈ texts, PlainText text) : PlainText (separator.intercalate texts) := by
  unfold PlainText
  rw [String.toList_intercalate]
  refine Plain.intercalate between ?_
  intro cs member
  obtain ⟨text, found, rfl⟩ := List.mem_map.mp member
  exact plain text found

theorem ident (name : String) : PlainText (Name.ident name) := by
  unfold PlainText Name.ident
  rw [String.toList_ofList]
  exact plain_token name.toList

theorem idiom (path : String) : PlainText (Name.idiom path) := by
  refine intercalate (of_quiet rfl) ?_
  intro text member
  obtain ⟨part, _, rfl⟩ := List.mem_map.mp member
  exact ident part

theorem idioms (paths : List String) : PlainText (Name.idioms paths) := by
  refine intercalate (of_quiet rfl) ?_
  intro text member
  obtain ⟨path, _, rfl⟩ := List.mem_map.mp member
  exact idiom path

theorem quote (s : String) : PlainText (Json.quote s) := plain_quote s

theorem number (n : Nat) : PlainText (toString n) := by
  refine of_quiet ?_
  rw [Nat.toString_eq_ofList_toDigits, String.toList_ofList, List.all_eq_true]
  intro c member
  exact isQuiet_of_isWordChar (isWordChar_of_mem_toDigits member)

theorem duration (span : Duration) : PlainText span.render := by
  unfold Duration.render
  split
  · exact of_quiet rfl
  · split
    · next name length found =>
        have known := List.mem_of_find?_eq_some found
        have units : ∀ unit ∈ Duration.units, unit.1.toList.all isQuiet = true := by decide
        exact (number _).append (of_quiet (units _ known))
    · exact (number _).append (of_quiet rfl)

end PlainText

/-- The characters of pieces whose values are numbered from `n` on. -/
def chars (n : Nat) (ps : List Piece) : List Char := (String.join (Compiled.textsFrom n ps)).toList

/-- What the pieces are meant to be read as. -/
def lexemesFrom : Nat → List Piece → List Lexeme
  | _, [] => []
  | n, .text s :: rest => lexemes s ++ lexemesFrom n rest
  | n, .value _ :: rest => .parameter (variableName n) :: lexemesFrom (n + 1) rest

theorem chars_text (n : Nat) (text : String) (ps : List Piece) :
    chars n (.text text :: ps) = text.toList ++ chars n ps := by
  simp [chars, Compiled.textsFrom]

theorem chars_single (n : Nat) (text : String) : chars n [.text text] = text.toList := by
  rw [chars_text]
  exact List.append_nil _

theorem chars_value (n : Nat) (v : Json) (ps : List Piece) :
    chars n (.value v :: ps) = '$' :: (variableName n).toList ++ chars (n + 1) ps := by
  simp [chars, Compiled.textsFrom, placeholder]

theorem chars_append (n : Nat) (ps qs : List Piece) :
    chars n (ps ++ qs) = chars n ps ++ chars (n + (Piece.values ps).length) qs := by
  unfold chars
  rw [Compiled.textsFrom_append, String.join_append, String.toList_append]

theorem lexemesFrom_append (n : Nat) (ps qs : List Piece) :
    lexemesFrom n (ps ++ qs) =
      lexemesFrom n ps ++ lexemesFrom (n + (Piece.values ps).length) qs := by
  induction ps generalizing n with
  | nil => rfl
  | cons p rest ih =>
      cases p with
      | text s => rw [List.cons_append, lexemesFrom, lexemesFrom, ih n, List.append_assoc]; rfl
      | value v =>
          rw [List.cons_append, lexemesFrom, lexemesFrom, ih (n + 1), Piece.values,
            List.length_cons, Nat.add_right_comm, Nat.add_assoc, List.cons_append]

/-- The text of the pieces does not start with a word, unless what stands behind it does and there
is no text. -/
def Opens (ps : List Piece) : Prop := ∀ n rest, Delimited rest → Delimited (chars n ps ++ rest)

/-- Pieces whose text is read as it is meant, in front of anything that does not go on with a word,
and whose texts name no variable. -/
structure Legible (ps : List Piece) : Prop where
  reads : ∀ n rest, Delimited rest →
    read .outside (chars n ps ++ rest) = lexemesFrom n ps ++ read .outside rest
  fixed : ∀ text, .text text ∈ ps → ∀ name, .parameter name ∈ lexemes text → name ∈ reserved

namespace Opens

theorem nil : Opens [] := fun _ _ delimited => delimited

theorem append {ps qs : List Piece} (first : Opens ps) (second : Opens qs) : Opens (ps ++ qs) := by
  intro n rest delimited
  rw [chars_append, List.append_assoc]
  exact first _ _ (second _ _ delimited)

/-- Text that starts with another character than those of words. -/
theorem text {content : String} {c : Char} (head : content.toList.head? = some c)
    (noWord : Name.isWordChar c = false) (ps : List Piece) :
    Opens (.text content :: ps) := by
  intro n rest _ d first
  rw [chars_text, List.append_assoc, List.head?_append, head] at first
  cases first
  exact noWord

end Opens

namespace Legible

variable {ps qs : List Piece}

theorem nil : Legible [] := ⟨fun _ _ _ => rfl, fun _ member => by cases member⟩

theorem append (first : Legible ps) (second : Legible qs) (opens : Opens qs) :
    Legible (ps ++ qs) := by
  refine ⟨?_, ?_⟩
  · intro n rest delimited
    -- The second pieces end the word that the first ones may stop in.
    rw [chars_append, List.append_assoc, first.reads _ _ (opens _ _ delimited),
      second.reads _ _ delimited, lexemesFrom_append, List.append_assoc]
  · intro text member
    rcases List.mem_append.mp member with member | member
    · exact first.fixed text member
    · exact second.fixed text member

/-- Behind plain text anything may stand. -/
theorem cons {text : String} (plain : PlainText text) (legible : Legible ps) :
    Legible (.text text :: ps) := by
  refine ⟨?_, ?_⟩
  · intro n rest delimited
    rw [chars_text, List.append_assoc, plain.apart, legible.reads _ _ delimited, lexemesFrom,
      List.append_assoc]
    rfl
  · intro other member
    rcases List.mem_cons.mp member with equal | member
    · cases equal
      exact plain.fixed
    · exact legible.fixed other member

theorem text {content : String} (plain : PlainText content) : Legible [.text content] :=
  cons plain nil

theorem value (v : Json) : Legible [.value v] := by
  refine ⟨?_, ?_⟩
  · intro n rest delimited
    have word : ∀ c ∈ (variableName n).toList, Name.isWordChar c = true :=
      fun _ => isWordChar_of_mem_variableName
    have spelled : chars n [.value v] = '$' :: (variableName n).toList := by
      rw [chars_value]
      exact List.append_nil _
    rw [spelled, List.cons_append, read, if_pos rfl, read_parameter word delimited,
      List.nil_append, String.ofList_toList]
    rfl
  · intro text member
    simp at member

/-- A reserved parameter. -/
theorem parameter {content name : String} (spelled : content.toList = '$' :: name.toList)
    (word : name.toList.all Name.isWordChar = true) (known : name ∈ reserved) :
    Legible [.text content] := by
  have one : ∀ rest, Delimited rest →
      read .outside (content.toList ++ rest) = .parameter name :: read .outside rest := by
    intro rest delimited
    rw [spelled, List.cons_append, read, if_pos rfl,
      read_parameter (List.all_eq_true.mp word) delimited, List.nil_append, String.ofList_toList]
  have alone : lexemes content = [.parameter name] := by
    have read := one [] (by simp [Delimited])
    rwa [List.append_nil] at read
  refine ⟨?_, ?_⟩
  · intro n rest delimited
    rw [chars_single, one rest delimited, lexemesFrom, alone]
    rfl
  · intro other member found parameter
    cases List.mem_singleton.mp member
    rw [alone] at parameter
    cases List.mem_singleton.mp parameter
    exact known

/-- Plain text behind a text, written as one text with it. -/
theorem extend {content more : String} (legible : Legible [.text content])
    (plain : PlainText more) (opens : Opens [.text more]) : Legible [.text (content ++ more)] := by
  have two : ∀ rest, Delimited rest →
      read .outside ((content ++ more).toList ++ rest) =
        lexemes content ++ lexemes more ++ read .outside rest := by
    intro rest delimited
    have first := legible.reads 0 _ (opens 0 rest delimited)
    rw [chars_single, chars_single, plain.apart] at first
    rw [String.toList_append, List.append_assoc, first, lexemesFrom, List.append_assoc,
      List.append_assoc]
    rfl
  have alone : lexemes (content ++ more) = lexemes content ++ lexemes more := by
    have read := two [] (by simp [Delimited])
    rwa [List.append_nil, read_outside_nil, List.append_nil] at read
  refine ⟨?_, ?_⟩
  · intro n rest delimited
    rw [chars_single, two rest delimited, lexemesFrom, alone]
    simp [lexemesFrom]
  · intro other member name parameter
    cases List.mem_singleton.mp member
    rw [alone] at parameter
    rcases List.mem_append.mp parameter with parameter | parameter
    · exact legible.fixed content List.mem_cons_self name parameter
    · exact plain.fixed name parameter

theorem between {opening closing : String} (legible : Legible ps) (plain : PlainText opening)
    (plain' : PlainText closing) (opens : Opens [.text closing]) :
    Legible (Piece.between opening closing ps) :=
  (cons plain legible).append (text plain') opens

theorem parenthesized (legible : Legible ps) : Legible (Piece.between "(" ")" ps) :=
  legible.between (.of_quiet rfl) (.of_quiet rfl) (Opens.text rfl rfl [])

/-- The separator is plain and no part of a word. -/
theorem separated {separator : String} (plain : PlainText separator)
    (opens : ∀ ps, Opens (.text separator :: ps)) {groups : List (List Piece)}
    (legible : ∀ group ∈ groups, Legible group) :
    Legible (Piece.separated separator groups) := by
  induction groups with
  | nil => exact nil
  | cons group rest ih =>
      have head := legible group List.mem_cons_self
      have tail := ih fun other member => legible other (List.mem_cons_of_mem group member)
      cases rest with
      | nil => exact head
      | cons next more => exact head.append (cons plain tail) (opens _)

theorem commas {groups : List (List Piece)} (legible : ∀ group ∈ groups, Legible group) :
    Legible (Piece.separated ", " groups) :=
  separated (.of_quiet rfl) (Opens.text rfl rfl) legible

/-- A call of a function with a plain path. -/
theorem call {path : String} (plain : PlainText path) {groups : List (List Piece)}
    (legible : ∀ group ∈ groups, Legible group) :
    Legible (.text (path ++ "(") :: Piece.separated ", " groups ++ [.text ")"]) := by
  have opening : PlainText (path ++ "(") := plain.append (.of_quiet rfl)
  exact (cons opening (commas legible)).append (text (.of_quiet rfl)) (Opens.text rfl rfl [])

end Legible

section Keys

theorem plain_position (i : Nat) : PlainText ("[" ++ toString i ++ "]") :=
  (PlainText.append (.of_quiet rfl) (.number i)).append (.of_quiet rfl)

/-- The segment of a key is plain, and starts with a dot or a bracket. -/
theorem plain_segment (key : Key) : PlainText key.segment ∧ Opens [.text key.segment] := by
  have bracket : ∀ i : Nat, Opens [.text ("[" ++ toString i ++ "]")] := by
    intro i
    exact Opens.text (show _ = some '[' by simp) rfl []
  cases key with
  | field name =>
      refine ⟨PlainText.append (.of_quiet rfl) (.ident name), ?_⟩
      exact Opens.text (show _ = some '.' by simp [Key.segment]) rfl []
  | index i => exact ⟨plain_position i, bracket i⟩
  | present i => exact ⟨plain_position i, bracket i⟩

/-- A path stays legible when a segment is written behind it, also when the record is left out. -/
theorem Legible.join (key : Key) {base : List Piece} (legible : Legible base) :
    Legible (Piece.join base key.segment) := by
  obtain ⟨plain, opens⟩ := plain_segment key
  unfold Piece.join
  split
  · next content =>
      unfold joinPath
      split
      · next field isField =>
          refine .text ?_
          unfold PlainText at plain ⊢
          rw [isField] at plain
          rw [String.toList_ofList]
          exact plain.tail (by decide)
      · exact legible.extend plain opens
  · exact legible.append (.text plain) opens

end Keys

end GraphQuery.Reading
