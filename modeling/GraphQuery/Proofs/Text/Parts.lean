import GraphQuery.Text.Name

/-!
# The parts of a field path

A path is cut at its points, so no part has a point, and a path without points is its only part. The
parts say everything: with the points between them they are the path.
-/

namespace GraphQuery

namespace Text

theorem not_mem_of_mem_pieces {separator : Char} {cs piece : List Char}
    (member : piece ∈ pieces separator cs) : separator ∉ piece := by
  fun_induction pieces separator cs generalizing piece with
  | case1 => simp_all
  | case2 rest ih =>
      rcases List.mem_cons.mp member with rfl | behind
      · exact List.not_mem_nil
      · exact ih behind
  | case3 c rest _ none _ => exact absurd none (pieces_ne_nil separator rest)
  | case4 c rest other first more found ih =>
      rw [found] at ih
      rcases List.mem_cons.mp member with rfl | behind
      · have inside := ih List.mem_cons_self
        simp [Ne.symm other, inside]
      · exact ih (List.mem_cons_of_mem _ behind)

theorem pieces_of_not_mem {separator : Char} {cs : List Char} (missing : separator ∉ cs) :
    pieces separator cs = [cs] := by
  induction cs with
  | nil => rfl
  | cons c rest ih =>
      rw [List.mem_cons, not_or] at missing
      simp [pieces, Ne.symm missing.1, ih missing.2]

end Text

namespace Name

/-- A part has no parts of its own. -/
theorem parts_of_mem_parts {name path : String} (member : name ∈ parts path) :
    parts name = [name] := by
  obtain ⟨piece, cut, rfl⟩ := List.mem_map.mp member
  have whole : '.' ∉ (String.ofList piece).toList := by
    rw [String.toList_ofList]
    exact Text.not_mem_of_mem_pieces cut
  rw [parts, Text.split, Text.pieces_of_not_mem whole, List.map_singleton, String.ofList_toList]

/-- A path with a single part is that part. -/
theorem eq_of_parts {name path : String} (single : parts path = [name]) : path = name := by
  obtain ⟨piece, cut, rfl⟩ := List.map_eq_singleton_iff.mp single
  have joined := Text.intercalate_pieces '.' path.toList
  rw [cut] at joined
  have whole : piece = path.toList := by simpa [List.intercalate] using joined
  rw [whole, String.ofList_toList]

/-- Paths with the same parts are the same. -/
theorem parts_injective : Function.Injective parts := by
  intro path other same
  have pieces : Text.pieces '.' path.toList = Text.pieces '.' other.toList :=
    (List.map_inj_right fun _ _ => String.ofList_injective).mp same
  have chars : path.toList = other.toList := by
    rw [← Text.intercalate_pieces '.' path.toList, pieces, Text.intercalate_pieces]
  exact String.toList_injective chars

end Name

end GraphQuery
