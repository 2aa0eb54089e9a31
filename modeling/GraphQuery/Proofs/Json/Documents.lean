import GraphQuery.Json.Documents
import GraphQuery.Proofs.Json.TrailingBlank.Values
import GraphQuery.Proofs.Text.Lines
import Mathlib.Data.List.Forall2

/-!
# One document on each line

A line that is cut out of a source may lack a carriage return that the line has at its end. It is blank when
the line is, and it holds the same document, so the lines of the source can be looked at in place of those that
are cut out.
-/

namespace GraphQuery

open Outcome

namespace Documents

/-! ## Reading lines -/

/-- A line that is blank or one JSON text. -/
def isFine (line : List Char) : Bool := Text.isBlankLine line || (Json.parse (String.ofList line)).isOk

/-- The line holds this document and nothing else. -/
def Holds (line : List Char) (document : Json) : Prop := Json.parse (String.ofList line) = .ok document

/-- Two lines hold the same document, or none. -/
def HoldAlike (line other : List Char) : Prop := ∀ document, Holds line document ↔ Holds other document

/-- The lines that are not blank. -/
def written (lines : List (List Char)) : List (List Char) := lines.filter fun line => !Text.isBlankLine line

variable {number : Nat} {line : List Char} {lines : List (List Char)} {document : Json}
  {documents : List Json} {fault : Fault}

/-- A line is blank, or it holds a document, or it is at fault. -/
theorem line_cases (line : List Char) :
    Text.isBlankLine line = true ∨
      Text.isBlankLine line = false ∧
        ((∃ document, Holds line document) ∨ ∃ fault, Json.parse (String.ofList line) = .error fault) := by
  cases Text.isBlankLine line with
  | true => exact .inl rfl
  | false =>
      refine .inr ⟨rfl, ?_⟩
      cases parsed : Json.parse (String.ofList line) with
      | error fault => exact .inr ⟨fault, rfl⟩
      | ok document => exact .inl ⟨document, parsed⟩

theorem ofLines_blank (blank : Text.isBlankLine line = true) :
    ofLines number (line :: lines) = ofLines (number + 1) lines := by
  rw [ofLines, if_pos blank]

theorem ofLines_document (solid : Text.isBlankLine line = false) (holds : Holds line document) :
    ofLines number (line :: lines) = (ofLines (number + 1) lines).map (document :: ·) := by
  rw [Holds] at holds
  rw [ofLines, solid, if_neg Bool.false_ne_true, holds]
  cases ofLines (number + 1) lines <;> rfl

theorem ofLines_faulty (solid : Text.isBlankLine line = false)
    (faulty : Json.parse (String.ofList line) = .error fault) :
    ofLines number (line :: lines) = .error ⟨some number, fault⟩ := by
  rw [ofLines, solid, if_neg Bool.false_ne_true, faulty]

theorem ofLines_eq_ok :
    ofLines number lines = .ok documents ↔ List.Forall₂ Holds (written lines) documents := by
  induction lines generalizing number documents with
  | nil => simp [ofLines, written, eq_comm]
  | cons line lines ih =>
      rcases line_cases line with blank | ⟨solid, ⟨document, holds⟩ | ⟨fault, faulty⟩⟩
      · rw [ofLines_blank blank, ih, written, written, List.filter_cons_of_neg (by simp [blank])]
      · have unique (other : Json) : Holds line other ↔ other = document := by
          rw [Holds] at holds
          rw [Holds, holds, Except.ok.injEq, eq_comm]
        rw [ofLines_document solid holds, map_eq_ok, written, List.filter_cons_of_pos (by simp [solid]),
          List.forall₂_cons_left_iff]
        simp only [ih, unique, written, exists_and_left, exists_eq_left, eq_comm (a := documents)]
      · have nothing (other : Json) : ¬ Holds line other := by
          rw [Holds, faulty]
          nofun
        rw [ofLines_faulty solid faulty, written, List.filter_cons_of_pos (by simp [solid]),
          List.forall₂_cons_left_iff]
        simp [nothing]

theorem ofLines_eq_error_of_isFine (fine : isFine line = true) {e : SourceFault} :
    ofLines number (line :: lines) = .error e ↔ ofLines (number + 1) lines = .error e := by
  rcases line_cases line with blank | ⟨solid, ⟨document, holds⟩ | ⟨fault, faulty⟩⟩
  · rw [ofLines_blank blank]
  · rw [ofLines_document solid holds, map_eq_error]
  · rw [isFine, solid, faulty] at fine
    cases fine

theorem exists_ofLines_of_not_isFine (bad : isFine line = false) :
    ∃ fault, ofLines number (line :: lines) = .error ⟨some number, fault⟩ := by
  rw [isFine, Bool.or_eq_false_iff] at bad
  rcases line_cases line with blank | ⟨solid, ⟨document, holds⟩ | ⟨fault, faulty⟩⟩
  · rw [blank] at bad
    cases bad.1
  · rw [Holds] at holds
    rw [holds] at bad
    cases bad.2
  · exact ⟨fault, ofLines_faulty solid faulty⟩

/-- The first line that is at fault is reported, and it is counted among all lines. -/
theorem ofLines_eq_error {position : Nat} :
    (∃ fault, ofLines number lines = .error ⟨some position, fault⟩) ↔
      ∃ index, lines.findIdx? (fun line => !isFine line) = some index ∧ position = number + index := by
  induction lines generalizing number with
  | nil => simp [ofLines]
  | cons line lines ih =>
      rw [List.findIdx?_cons]
      cases fine : isFine line with
      | true =>
          rw [if_neg (by decide), exists_congr fun _ => ofLines_eq_error_of_isFine fine, ih]
          simp only [Option.map_eq_some_iff, exists_exists_and_eq_and, Nat.add_assoc, Nat.add_comm 1]
      | false =>
          obtain ⟨fault, reported⟩ : ∃ fault, ofLines number (line :: lines) = .error ⟨some number, fault⟩ :=
            exists_ofLines_of_not_isFine fine
          rw [if_pos (by decide), reported]
          simp [eq_comm]

/-! ## Lines that are cut out -/

open Text

theorem isBlankLine_cut (ending : LineEnd) (line : List Char) :
    isBlankLine (ending.cut line) = isBlankLine line := by
  rcases ending.cut_cases line with same | longer
  · rw [same]
  · rw [longer, isBlankLine, isBlankLine, List.all_append]
    simp [show isBlank '\r' = true by decide, ← longer]

theorem holdAlike_cut (ending : LineEnd) (line : List Char) : HoldAlike (ending.cut line) line := by
  intro document
  rcases ending.cut_cases line with same | longer
  · rw [same]
  · have trailing := Json.parse_append_blank (b := '\r') (by decide) (ending.cut line) document
    rw [← longer] at trailing
    exact trailing.symm

theorem isFine_iff : isFine line = true ↔ isBlankLine line = true ∨ ∃ document, Holds line document := by
  rw [isFine, Bool.or_eq_true]
  refine or_congr_right ?_
  cases parsed : Json.parse (String.ofList line) <;> simp [Holds, parsed]

theorem isFine_cut (ending : LineEnd) (line : List Char) : isFine (ending.cut line) = isFine line := by
  rw [Bool.eq_iff_iff, isFine_iff, isFine_iff, isBlankLine_cut, exists_congr (holdAlike_cut ending line)]

theorem written_append (lines others : List (List Char)) :
    written (lines ++ others) = written lines ++ written others := List.filter_append lines others

/-- What does not see an empty line does not see whether an empty last line is left out. -/
theorem unless_empty {α : Type} (f : List (List Char) → α) (unseen : f [] = f [[]]) (line : List Char) :
    f (if line = [] then [] else [line]) = f [line] := by
  split
  next empty => rw [empty, unseen]
  next => rfl

/-- The lines that are cut out of a text hold what its lines hold. -/
theorem forall₂_written_lines_text (t : LinedText) :
    List.Forall₂ HoldAlike (written (Text.lines t.text.toList)) (written t.lines) := by
  have ended : List.Forall₂ HoldAlike (written (t.ended.map fun line => line.2.cut line.1))
      (written (t.ended.map Prod.fst)) := by
    rw [written, written, List.filter_map, List.filter_map, List.forall₂_map_left_iff,
      List.forall₂_map_right_iff]
    simp only [Function.comp_def, isBlankLine_cut]
    exact List.forall₂_same.mpr fun line _ => holdAlike_cut line.2 line.1
  have last := unless_empty written rfl t.last
  rw [LinedText.lines_text, LinedText.lines, written_append, written_append, last]
  exact List.rel_append ended (List.forall₂_same.mpr fun _ _ _ => Iff.rfl)

theorem findIdx?_lines_text (t : LinedText) :
    (Text.lines t.text.toList).findIdx? (fun line => !isFine line) =
      t.lines.findIdx? fun line => !isFine line := by
  have last := unless_empty (List.findIdx? fun line => !isFine line) rfl t.last
  rw [LinedText.lines_text, LinedText.lines, List.findIdx?_append, List.findIdx?_append, List.findIdx?_map,
    List.findIdx?_map, last, List.length_map, List.length_map]
  simp only [Function.comp_def, isFine_cut]

theorem forall₂_holds_congr {others : List (List Char)}
    (alike : List.Forall₂ HoldAlike lines others) :
    List.Forall₂ Holds lines documents ↔ List.Forall₂ Holds others documents := by
  induction alike generalizing documents with
  | nil => rfl
  | cons here _ ih => simp only [List.forall₂_cons_left_iff, here _, ih]

/-- **One document on each line, and the first bad line is named.** However lines are ended, a source that is
made of them holds the documents of those that are not blank, in their order, when each of these is one JSON
text. Otherwise, whatever pointer is given, the fault names the first line that is neither blank nor JSON,
counted from one among all lines. And every source is made of lines. -/
theorem lines_split_exactly :
    (∀ t : LinedText,
      (∀ documents, split .lines none t.text = .ok documents ↔
        List.Forall₂ Holds (written t.lines) documents) ∧
      ∀ pointer index, (∃ fault, split .lines pointer t.text = .error ⟨some (index + 1), fault⟩) ↔
        t.lines.findIdx? (fun line => !isFine line) = some index) ∧
    ∀ source, ∃ t : LinedText, t.text = source := by
  refine ⟨fun t => ⟨fun documents => ?_, fun pointer index => ?_⟩, exists_linedText⟩
  · rw [← forall₂_holds_congr (forall₂_written_lines_text t), split, map_eq_ok]
    simp only [read, select, exists_eq_right, ofLines_eq_ok]
  · simp only [split, map_eq_error, read, ofLines_eq_error, findIdx?_lines_text, Nat.add_comm index,
      Nat.add_left_cancel_iff, exists_eq_right']

end Documents

end GraphQuery
