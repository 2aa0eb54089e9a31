import GraphQuery.Query.Node

/-!
# Layouts

A statement is laid out as a list of parts, clause by clause. This module has the small layouts that
clauses are made of, and the same texts for statements that are rendered.
-/

namespace GraphQuery

/-- The parts of a statement or of a clause, in the order in which they are written. -/
abbrev Layout := List Part

namespace Layout

/-- Put a separator between layouts. -/
def separated (separator : String) : List Layout → Layout
  | [] => []
  | [group] => group
  | group :: rest => group ++ .text separator :: separated separator rest

/-- Text under a condition. -/
def textIf (condition : Bool) (content : String) : Layout :=
  if condition then [.text content] else []

/-- A keyword in front of field paths, unless there are none. -/
def paths (keyword : String) (paths : List String) : Layout :=
  if paths.isEmpty then [] else [.text (keyword ++ Name.idioms paths)]

/-- The text of `Layout.paths`. -/
def pathsText (keyword : String) (paths : List String) : String :=
  if paths.isEmpty then "" else keyword ++ Name.idioms paths

/-- Render the parts of a layout one after the other. -/
def render (layout : Layout) : Rendering String := Term.renderLayout layout

/-- The pieces of a layout at a place. -/
def pieces (scopes : Scopes) (layout : Layout) : List Piece := Term.piecesLayout scopes layout

end Layout

end GraphQuery
