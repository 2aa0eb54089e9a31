import GraphQuery.Proofs.Query.Reading
import GraphQuery.Text.NameReading

/-!
# Names are read back

What `Name.ident` writes, `Name.read?` reads: the name, and all that stands behind it, unless that
goes on with a word.
-/

namespace GraphQuery.Name

open Reading

/-- A word goes on to where the text does not. -/
theorem takeWhile_word {word rest : List Char} (isWord : ∀ c ∈ word, isWordChar c = true)
    (delimited : Delimited rest) : (word ++ rest).takeWhile isWordChar = word := by
  rw [List.takeWhile_append_of_pos isWord]
  cases rest with
  | nil => simp
  | cons c rest => simp [delimited c rfl]

theorem dropWhile_word {word rest : List Char} (isWord : ∀ c ∈ word, isWordChar c = true)
    (delimited : Delimited rest) : (word ++ rest).dropWhile isWordChar = rest := by
  rw [List.dropWhile_append_of_pos isWord]
  cases rest with
  | nil => rfl
  | cons c rest => simp [delimited c rfl]

/-- What stands between back-ticks is read up to the closing one, each escape as its character. -/
theorem readQuoted_escaped (name rest : List Char) :
    readQuoted (escaped name ++ '\x60' :: rest) = some (name, rest) := by
  rw [escaped_eq_flatMap]
  induction name with
  | nil => rw [List.flatMap_nil, List.nil_append, readQuoted]
  | cons c name ih =>
      rw [List.flatMap_cons, List.append_assoc, escape]
      split
      · rw [List.cons_append, List.singleton_append, readQuoted, ih]
        rfl
      · next unescaped =>
          rw [not_or] at unescaped
          rw [List.singleton_append, readQuoted, ih]
          · rfl
          · exact fun escapes _ => unescaped.1 escapes
          · exact fun closes => unescaped.2 closes
          · exact fun _ _ escapes _ => unescaped.1 escapes

/-- A name is read back, and what stands behind it is left. -/
theorem read?_token (name : List Char) {rest : List Char} (delimited : Delimited rest) :
    read? (token name ++ rest) = some (String.ofList name, rest) := by
  rw [token]
  split
  · next bare =>
      have word := isWordChar_of_isBareWord bare
      have other : ∀ behind, name ++ rest ≠ '\x60' :: behind := by
        intro behind quoted
        cases name with
        | nil => cases bare
        | cons c name =>
            rw [List.cons_append, List.cons.injEq] at quoted
            rw [quoted.1] at word
            exact absurd (word _ List.mem_cons_self) (by decide)
      rw [read?, takeWhile_word word delimited, dropWhile_word word delimited, if_pos bare]
      exact other
  · rw [List.cons_append, List.cons_append, List.append_assoc, List.singleton_append, read?,
      readQuoted_escaped]
    rfl

theorem read?_ident (name : String) {rest : List Char} (delimited : Delimited rest) :
    read? ((ident name).toList ++ rest) = some (name, rest) := by
  rw [ident, String.toList_ofList, read?_token name.toList delimited, String.ofList_toList]

end GraphQuery.Name
