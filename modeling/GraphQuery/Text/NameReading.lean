import GraphQuery.Text.Name

/-!
# Reading names

`Name.read?` reads a name at the head of query text and returns what stands behind it. A name is a
bare word, which goes on as long as it can, or stands between back-ticks, where a backslash gives the
character behind it. `Name.readNames?` reads names that are separated by points, as far as they go.
-/

namespace GraphQuery.Name

/-- Read up to the closing back-tick. -/
def readQuoted : List Char → Option (List Char × List Char)
  | [] => none
  | ['\\'] => none
  | '\x60' :: rest => some ([], rest)
  | '\\' :: c :: rest => (readQuoted rest).map fun (name, behind) => (c :: name, behind)
  | c :: rest => (readQuoted rest).map fun (name, behind) => (c :: name, behind)

/-- Read a name. -/
def read? (text : List Char) : Option (String × List Char) :=
  match text with
  | '\x60' :: rest => (readQuoted rest).map fun (name, behind) => (String.ofList name, behind)
  | _ =>
    if isBareWord (text.takeWhile isWordChar) then
      some (String.ofList (text.takeWhile isWordChar), text.dropWhile isWordChar)
    else none

theorem length_of_readQuoted {text name behind : List Char}
    (found : readQuoted text = some (name, behind)) : behind.length < text.length := by
  fun_induction readQuoted text generalizing name behind with
  | case1 => cases found
  | case2 => cases found
  | case3 rest =>
      cases found
      exact Nat.lt_succ_self _
  | case4 c rest ih =>
      obtain ⟨⟨name, behind⟩, inside, same⟩ := Option.map_eq_some_iff.mp found
      cases same
      have shorter := ih inside
      simp only [List.length_cons]
      omega
  | case5 c rest _ _ _ ih =>
      obtain ⟨⟨name, behind⟩, inside, same⟩ := Option.map_eq_some_iff.mp found
      cases same
      have shorter := ih inside
      simp only [List.length_cons]
      omega

/-- A name takes at least one character. -/
theorem length_of_read? {text behind : List Char} {name : String}
    (found : read? text = some (name, behind)) : behind.length < text.length := by
  unfold read? at found
  split at found
  · obtain ⟨⟨name, behind⟩, quoted, same⟩ := Option.map_eq_some_iff.mp found
    cases same
    exact Nat.lt_succ_of_lt (length_of_readQuoted quoted)
  · split at found
    · next bare =>
        cases found
        have whole := congrArg List.length (List.takeWhile_append_dropWhile (p := isWordChar) (l := text))
        rw [List.length_append] at whole
        -- There is no bare word without characters.
        have some : (text.takeWhile isWordChar).length ≠ 0 := by
          intro none
          rw [List.eq_nil_of_length_eq_zero none] at bare
          cases bare
        omega
    · cases found

/-- Read names that are separated by points. -/
def readNames? (text : List Char) : Option (List String × List Char) :=
  match _ : read? text with
  | none => none
  | some (name, '.' :: rest) =>
    (readNames? rest).map fun (names, behind) => (name :: names, behind)
  | some (name, rest) => some ([name], rest)
termination_by text.length
decreasing_by
  have shorter := length_of_read? ‹_›
  simp only [List.length_cons] at shorter
  omega

end GraphQuery.Name
