import GraphQuery.Query.Layout

/-!
# Places in a term

A `Term.Context` is a term with a hole. The hole is a place: it has the statements around it, and what
is put there is written inside the innermost of them. `Term.Context.frame` writes the rest of the term
around what is written in the hole.
-/

namespace GraphQuery

/-- The place inside statements of the given scopes, the innermost first. -/
def Scopes.inside (around : List ScopeId) : Scopes := ⟨around.head?, around.tail.head?⟩

theorem Scopes.inside_nil : inside [] = outermost := rfl

theorem Scopes.inside_cons (scope : ScopeId) (around : List ScopeId) :
    inside (scope :: around) = (inside around).enter scope := rfl

/-- A term as it is written, with the one thing that matters to what is written around it. -/
structure Written where
  /-- It needs no parentheses as an operand. -/
  atomic : Bool
  pieces : List Piece

namespace Written

/-- As an operand. -/
def enclosed (w : Written) : List Piece :=
  if w.atomic then w.pieces else Piece.between "(" ")" w.pieces

/-- An application of an operation to what is written. -/
def application (operation : Operation) (receiver : Written) (arguments : List Written) :
    Written where
  atomic := match operation.form with
    | .between _ => false
    | _ => true
  pieces := match operation.form with
    | .between token =>
      receiver.enclosed ++ .text (" " ++ token ++ " ") ::
        Piece.separated (" " ++ token ++ " ") (arguments.map enclosed)
    | .before token => .text token :: receiver.enclosed
    | .call path =>
      .text (path ++ "(") :: Piece.separated ", " (receiver.pieces :: arguments.map pieces) ++
        [.text ")"]
    | .callSeparated path =>
      .text (path ++ "(") ::
        Piece.separated ", " ((arguments.map pieces).take 1 ++ receiver.pieces ::
          (arguments.map pieces).drop 1) ++ [.text ")"]

end Written

namespace Term

/-- The term as it is written at a place. -/
def written (scopes : Scopes) (t : Term) : Written := ⟨t.isAtomic, t.pieces scopes⟩

/-- A term with a hole. -/
inductive Context
  | hole
  | get (inner : Context) (key : Key)
  | receiver (operation : Operation) (inner : Context) (arguments : List Term)
  | argument (operation : Operation) (first : Term) (before : List Term) (inner : Context)
      (after : List Term)
  | entry (before : List (String × Term)) (key : String) (inner : Context)
      (after : List (String × Term))
  | item (before : List Term) (inner : Context) (after : List Term)
  /-- A term in a clause of a statement. -/
  | clause (scope : ScopeId) (before : Layout) (inner : Context) (after : Layout)
  /-- The same where an operand stands. -/
  | operand (scope : ScopeId) (before : Layout) (inner : Context) (after : Layout)

namespace Context

/-- Put a term into the hole. -/
def plug : Context → Term → Term
  | hole, t => t
  | get base key, t => .get (base.plug t) key
  | receiver op inner arguments, t => .apply op (inner.plug t) arguments
  | argument op first before inner after, t => .apply op first (before ++ inner.plug t :: after)
  | entry before key inner after, t => .object (before ++ (key, inner.plug t) :: after)
  | item before inner after, t => .array (before ++ inner.plug t :: after)
  | clause scope before inner after, t => .query scope (before ++ .term (inner.plug t) :: after)
  | operand scope before inner after, t =>
    .query scope (before ++ .operand (inner.plug t) :: after)

/-- The statements around the hole, the innermost first, if those in the list are around the whole. -/
def around (outside : List ScopeId) : Context → List ScopeId
  | hole => outside
  | get inner _ => inner.around outside
  | receiver _ inner _ => inner.around outside
  | argument _ _ _ inner _ => inner.around outside
  | entry _ _ inner _ => inner.around outside
  | item _ inner _ => inner.around outside
  | clause scope _ inner _ => inner.around (scope :: outside)
  | operand scope _ inner _ => inner.around (scope :: outside)

/-- Write the rest of the term around what is written in the hole. -/
def frame (outside : List ScopeId) : Context → Written → Written
  | hole, w => w
  | get inner key, w => ⟨true, Piece.join (inner.frame outside w).enclosed key.segment⟩
  | receiver op inner arguments, w =>
    .application op (inner.frame outside w) (arguments.map (written (.inside outside)))
  | argument op first before inner after, w =>
    .application op (first.written (.inside outside))
      (before.map (written (.inside outside)) ++ inner.frame outside w ::
        after.map (written (.inside outside)))
  | entry before key inner after, w =>
    ⟨true, objectLiteral (piecesEntries (.inside outside) before ++
      (.text (Json.quote key ++ ": ") :: (inner.frame outside w).pieces) ::
        piecesEntries (.inside outside) after)⟩
  | item before inner after, w =>
    ⟨true, Piece.between "[" "]" (Piece.separated ", " (piecesEach (.inside outside) before ++
      (inner.frame outside w).pieces :: piecesEach (.inside outside) after))⟩
  | clause scope before inner after, w =>
    ⟨true, Piece.between "(" ")" (Layout.pieces (.inside (scope :: outside)) before ++
      ((inner.frame (scope :: outside) w).pieces ++
        Layout.pieces (.inside (scope :: outside)) after))⟩
  | operand scope before inner after, w =>
    ⟨true, Piece.between "(" ")" (Layout.pieces (.inside (scope :: outside)) before ++
      ((inner.frame (scope :: outside) w).enclosed ++
        Layout.pieces (.inside (scope :: outside)) after))⟩

end Context

end Term

end GraphQuery
