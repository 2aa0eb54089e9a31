import GraphQuery.Json.Pointer
import GraphQuery.Json.Source
import GraphQuery.Text.Blank

/-!
# Documents of a source

A source holds one JSON document, or one on each of its lines that is not blank. A line that is no
JSON is reported by its number among all lines, blank ones counted.
-/

namespace GraphQuery

/-- A source does not hold documents; a source of lines names the line. -/
structure SourceFault where
  line : Option Nat
  fault : Fault
  deriving DecidableEq, Repr

def SourceFault.message (e : SourceFault) : String :=
  match e.line with
  | some number => "line " ++ toString number ++ ": " ++ e.fault.message
  | none => e.fault.message

/-- How documents stand in a source. -/
inductive SourceForm
  | single
  | lines
  deriving DecidableEq, Repr

namespace Documents

/-- The documents on lines, of which the first has a number; the first bad line is the fault. -/
def ofLines (number : Nat) : List (List Char) → Except SourceFault (List Json)
  | [] => .ok []
  | line :: rest =>
    if Text.isBlankLine line then ofLines (number + 1) rest
    else match Json.parse (String.ofList line) with
      | .error fault => .error ⟨some number, fault⟩
      | .ok v => match ofLines (number + 1) rest with
        | .error e => .error e
        | .ok vs => .ok (v :: vs)

/-- The documents of a source. -/
def read (form : SourceForm) (source : String) : Except SourceFault (List Json) :=
  match form with
  | .lines => ofLines 1 (Text.lines source.toList)
  | .single => match Json.parse source with
    | .error fault => .error ⟨none, fault⟩
    | .ok v => .ok [v]

/-- The selected part of each document; one without that part is left out. -/
def select : Option String → List Json → List Json
  | none, documents => documents
  | some pointer, documents => documents.filterMap fun v => v.pointer? pointer

/-- The documents of a source, or the part of each that a pointer selects. -/
def split (form : SourceForm) (pointer : Option String) (source : String) :
    Except SourceFault (List Json) :=
  (read form source).map (select pointer)

end Documents

end GraphQuery
