import GraphQuery.Descriptor.Project
import GraphQuery.Json.Text
import GraphQuery.Operation.Table
import GraphQuery.Query.Piece

/-!
# Terms

A `Term` is what a query computes, as a tree: records, raw values, projections, applications,
literals, and statements used as sub-queries. A statement is laid out as a list of parts: keywords
and names, raw values, and the terms of its clauses. `Term.pieces` writes a term at a place.
-/

namespace GraphQuery

mutual

/-- What a query computes. -/
inductive Term
  /-- The record of a statement. -/
  | record (scope : ScopeId)
  /-- The rejected input of an insertion. -/
  | input
  /-- A field path of the current record. -/
  | fieldPath (path : String)
  | value (content : Json)
  | get (base : Term) (key : Key)
  | apply (operation : Operation) (receiver : Term) (arguments : List Term)
  | object (entries : List (String × Term))
  | array (items : List Term)
  | query (scope : ScopeId) (layout : List Part)

/-- A part of a statement. -/
inductive Part
  /-- Keywords, names and punctuation. -/
  | text (content : String)
  | value (content : Json)
  | term (content : Term)
  /-- A term in a place that takes a single token or a bracketed term. -/
  | operand (content : Term)

end

namespace Term

/-- The term is written as one token or within brackets of its own; any other term is put in
parentheses when it is an operand. -/
def isAtomic : Term → Bool
  | apply op _ _ => match op.form with
    | .between _ => false
    | _ => true
  | _ => true

/-- A term as an operand. -/
def enclose (t : Term) (pieces : List Piece) : List Piece :=
  if t.isAtomic then pieces else Piece.between "(" ")" pieces

/-- An application, given the pieces of its receiver and of its arguments. Operators take operands;
functions take their arguments as they are. -/
def application (form : Form) (receiver : Term) (written : List Piece) (arguments : List Term)
    (writtenArguments : List (List Piece)) : List Piece :=
  match form with
  | .between token =>
    enclose receiver written ++ .text (" " ++ token ++ " ") ::
      Piece.separated (" " ++ token ++ " ") (List.zipWith enclose arguments writtenArguments)
  | .before token => .text token :: enclose receiver written
  | .call path =>
    .text (path ++ "(") :: Piece.separated ", " (written :: writtenArguments) ++ [.text ")"]
  | .callSeparated path =>
    .text (path ++ "(") ::
      Piece.separated ", " (writtenArguments.take 1 ++ written :: writtenArguments.drop 1) ++
        [.text ")"]

/-- An object literal; the braces of an empty one touch. -/
def objectLiteral (entries : List (List Piece)) : List Piece :=
  if entries.isEmpty then [.text "\x7b\x7d"]
  else Piece.between "\x7b " " \x7d" (Piece.separated ", " entries)

mutual

/-- Write a term at a place. -/
def pieces (scopes : Scopes) : Term → List Piece
  | record scope => [.text (scopes.record scope)]
  | input => [.text "$input"]
  | fieldPath path => [.text (Name.idiom path)]
  | value v => [.value v]
  | get base key => Piece.join (enclose base (pieces scopes base)) key.segment
  | apply op receiver arguments =>
    application op.form receiver (pieces scopes receiver) arguments (piecesEach scopes arguments)
  | object entries => objectLiteral (piecesEntries scopes entries)
  | array items => Piece.between "[" "]" (Piece.separated ", " (piecesEach scopes items))
  | query scope layout => Piece.between "(" ")" (piecesLayout (scopes.enter scope) layout)

def piecesEach (scopes : Scopes) : List Term → List (List Piece)
  | [] => []
  | t :: rest => pieces scopes t :: piecesEach scopes rest

def piecesEntries (scopes : Scopes) : List (String × Term) → List (List Piece)
  | [] => []
  | (key, t) :: rest =>
    (.text (Json.quote key ++ ": ") :: pieces scopes t) :: piecesEntries scopes rest

/-- Write a part of a statement. -/
def piecesPart (scopes : Scopes) : Part → List Piece
  | .text s => [.text s]
  | .value v => [.value v]
  | .term t => pieces scopes t
  | .operand t => enclose t (pieces scopes t)

/-- Write the parts of a statement one after the other. -/
def piecesLayout (scopes : Scopes) : List Part → List Piece
  | [] => []
  | part :: rest => piecesPart scopes part ++ piecesLayout scopes rest

end

/-- A term as an operand at a place. -/
def operandPieces (scopes : Scopes) (t : Term) : List Piece := t.enclose (t.pieces scopes)

end Term

end GraphQuery
