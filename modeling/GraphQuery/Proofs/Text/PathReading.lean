import GraphQuery.Proofs.Text.NameReading
import GraphQuery.Proofs.Text.Parts

/-!
# Field paths are read back

A field path is written name by name, with points between the names. Whatever a name holds, it ends where
its token ends, so a reader of names that are separated by points finds the parts of the path again: no
name runs into the next one, and none is cut at a point of its own. Two paths that are written alike are
therefore the same path.
-/

namespace GraphQuery.Name

open Reading

variable {text rest : List Char} {name : String}

/-- The names go on behind a point. -/
theorem readNames?_of_point (first : read? text = some (name, '.' :: rest)) :
    readNames? text = (readNames? rest).map fun (names, behind) => (name :: names, behind) := by
  rw [readNames?]
  split
  · next none =>
      rw [first] at none
      cases none
  · next found =>
      rw [first] at found
      cases found
      rfl
  · next noPoint found =>
      rw [first] at found
      cases found
      exact absurd rfl (noPoint rest)

/-- A name is the last one when there is no point behind it. -/
theorem readNames?_of_no_point (first : read? text = some (name, rest))
    (noPoint : rest.head? ≠ some '.') : readNames? text = some ([name], rest) := by
  rw [readNames?]
  split
  · next none =>
      rw [first] at none
      cases none
  · next found =>
      rw [first] at found
      cases found
      exact absurd rfl noPoint
  · next found =>
      rw [first] at found
      cases found
      rfl

/-- A point ends a word. -/
theorem delimited_point (rest : List Char) : Delimited ('.' :: rest) := by
  intro c first
  cases first
  decide

/-- Names with points between them are read back. -/
theorem readNames?_intercalate {names : List String} (nonempty : names ≠ [])
    (delimited : Delimited rest) (noPoint : rest.head? ≠ some '.') :
    readNames? ((".".intercalate (names.map ident)).toList ++ rest) = some (names, rest) := by
  induction names with
  | nil => exact absurd rfl nonempty
  | cons name more ih =>
      cases more with
      | nil =>
          have last := read?_ident name delimited
          simpa using readNames?_of_no_point last noPoint
      | cons next more =>
          have behind := ih (List.cons_ne_nil next more)
          have point := delimited_point ((".".intercalate ((next :: more).map ident)).toList ++ rest)
          have first := readNames?_of_point (read?_ident name point)
          rw [behind] at first
          rw [List.map_cons, List.map_cons, String.intercalate_cons_cons, ← List.map_cons,
            String.toList_append, String.toList_append, List.append_assoc, List.append_assoc]
          exact first

theorem readNames?_idiom (path : String) (delimited : Delimited rest)
    (noPoint : rest.head? ≠ some '.') :
    readNames? ((idiom path).toList ++ rest) = some (parts path, rest) :=
  readNames?_intercalate (parts_ne_nil path) delimited noPoint

/-- What is written for a name is read as that name and nothing more, whatever the name holds, as long as
no word goes on behind it. Of a field path all parts are read, and nothing else. So paths that are written
alike are the same. -/
theorem names_read_back :
    (∀ (name : String) (rest : List Char), Delimited rest →
      read? ((ident name).toList ++ rest) = some (name, rest)) ∧
    (∀ (path : String) (rest : List Char), Delimited rest → rest.head? ≠ some '.' →
      readNames? ((idiom path).toList ++ rest) = some (parts path, rest)) ∧
    Function.Injective idiom := by
  refine ⟨?_, ?_, ?_⟩
  · intro name rest delimited
    exact read?_ident name delimited
  · intro path rest delimited noPoint
    exact readNames?_idiom path delimited noPoint
  · intro path other same
    have nothing : Delimited [] := by simp [Delimited]
    have first := readNames?_idiom path nothing (by simp)
    have second := readNames?_idiom other nothing (by simp)
    rw [same, second, Option.some.injEq, Prod.mk.injEq] at first
    exact parts_injective first.1.symm

/-- A name of a backslash and a back-tick, and a path with a blank in its second part and nothing in its
last one. -/
theorem names_read_back_odd :
    Delimited [' ', '='] ∧ ident "\\`" = "`\\\\\\``" ∧
      read? ((ident "\\`").toList ++ [' ', '=']) = some ("\\`", [' ', '=']) ∧
      idiom "a.b c." = "a.`b c`.``" ∧
      readNames? ((idiom "a.b c.").toList ++ [' ', '=']) = some (["a", "b c", ""], [' ', '=']) := by
  have delimited : Delimited [' ', '='] := by
    intro c first
    cases first
    decide
  obtain ⟨name_read, path_read, _⟩ := names_read_back
  have cut : parts "a.b c." = ["a", "b c", ""] := by decide
  have path := path_read "a.b c." [' ', '='] delimited (by decide)
  rw [cut] at path
  exact ⟨delimited, by decide, name_read "\\`" [' ', '='] delimited, by decide, path⟩

end GraphQuery.Name
