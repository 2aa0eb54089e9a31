/-!
# Pieces of a text

`Text.pieces` cuts a text at every separator. Putting the separators back gives the text, and no
piece holds one.
-/

namespace GraphQuery.Text

/-- The pieces of a text between separators; there is always at least one. -/
def pieces (separator : Char) : List Char → List (List Char)
  | [] => [[]]
  | c :: rest =>
    if c = separator then [] :: pieces separator rest
    else match pieces separator rest with
      | [] => [[c]]
      | piece :: more => (c :: piece) :: more

theorem pieces_ne_nil (separator : Char) (cs : List Char) : pieces separator cs ≠ [] := by
  fun_cases pieces separator cs <;> simp [*]

theorem intercalate_pieces (separator : Char) (cs : List Char) :
    [separator].intercalate (pieces separator cs) = cs := by
  fun_induction pieces separator cs with
  | case1 => rfl
  | case2 rest ih =>
    cases h : pieces separator rest with
    | nil => exact absurd h (pieces_ne_nil separator rest)
    | cons piece more =>
      rw [h] at ih
      simpa [List.intercalate, List.intersperse] using ih
  | case3 c rest _ h _ => exact absurd h (pieces_ne_nil separator rest)
  | case4 c rest _ piece more h ih =>
    rw [h] at ih
    cases more with
    | nil => simpa [List.intercalate, List.intersperse] using ih
    | cons next more => simpa [List.intercalate, List.intersperse] using ih

/-- The pieces of a string between separators. -/
def split (separator : Char) (text : String) : List String :=
  (pieces separator text.toList).map String.ofList

end GraphQuery.Text
