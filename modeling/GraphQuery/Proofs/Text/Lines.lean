import GraphQuery.Text.LinedText

/-!
# Cutting a text into lines

A text is cut into the lines it was put together from, but for a carriage return that stands in front of a
line feed and is no part of the end: it is cut off as if it were one.
-/

namespace GraphQuery.Text

/-- A line without a carriage return at its end. -/
def chomp : List Char → List Char
  | [] => []
  | ['\r'] => []
  | c :: rest => c :: chomp rest

variable {line rest : List Char}

theorem chomp_append (line : List Char) : chomp (line ++ ['\r']) = line := by
  induction line with
  | nil => rfl
  | cons c rest ih =>
      rw [List.cons_append, chomp, ih]
      simp

theorem chomp_cases (line : List Char) : chomp line = line ∨ line = chomp line ++ ['\r'] := by
  fun_induction chomp line with
  | case1 => exact .inl rfl
  | case2 => exact .inr rfl
  | case3 c rest _ ih => exact ih.imp (congrArg _) (congrArg _)

/-- The lines of a text with one more character in front, which does not end a line. -/
def startingWith (c : Char) : List (List Char) → List (List Char)
  | [] => [[c]]
  | line :: more => (c :: line) :: more

theorem lines_cons {c : Char} (noLineFeed : c ≠ '\n') (noEnd : c = '\r' → ∀ more, rest ≠ '\n' :: more) :
    lines (c :: rest) = startingWith c (lines rest) := by
  rw [lines]
  · cases lines rest <;> rfl
  · exact noLineFeed
  · exact fun more carriageReturn behind => noEnd carriageReturn more behind

/-- A line is cut off at its line feed. -/
theorem lines_append (unbroken : '\n' ∉ line) (rest : List Char) :
    lines (line ++ '\n' :: rest) = chomp line :: lines rest := by
  fun_induction chomp line with
  | case1 => rfl
  | case2 => rfl
  | case3 c line goesOn ih =>
      rw [List.mem_cons, not_or] at unbroken
      rw [List.cons_append, lines_cons (Ne.symm unbroken.1), ih unbroken.2]
      · rfl
      intro carriageReturn more same
      cases line with
      | nil => exact goesOn carriageReturn rfl
      | cons d line =>
          cases same
          exact unbroken.2 List.mem_cons_self

theorem lines_of_unbroken (unbroken : '\n' ∉ line) :
    lines line = if line = [] then [] else [line] := by
  induction line with
  | nil => rfl
  | cons c line ih =>
      rw [List.mem_cons, not_or] at unbroken
      rw [lines_cons (Ne.symm unbroken.1), ih unbroken.2, if_neg (List.cons_ne_nil _ _)]
      · cases line <;> rfl
      · rintro - more rfl
        exact unbroken.2 List.mem_cons_self

/-- What is cut out for a line. -/
def LineEnd.cut : LineEnd → List Char → List Char
  | .lineFeed, line => chomp line
  | .carriageReturn, line => line

theorem LineEnd.cut_cases (ending : LineEnd) (line : List Char) :
    ending.cut line = line ∨ line = ending.cut line ++ ['\r'] := by
  cases ending with
  | lineFeed => exact chomp_cases line
  | carriageReturn => exact .inl rfl

theorem lines_ended (unbroken : '\n' ∉ line) (ending : LineEnd) (rest : List Char) :
    lines (line ++ ending.chars ++ rest) = ending.cut line :: lines rest := by
  cases ending with
  | lineFeed =>
      rw [List.append_assoc]
      exact lines_append unbroken rest
  | carriageReturn =>
      have longer : '\n' ∉ line ++ ['\r'] := by simpa using unbroken
      have whole : line ++ LineEnd.carriageReturn.chars ++ rest = line ++ ['\r'] ++ '\n' :: rest := by
        simp [LineEnd.chars]
      rw [whole, lines_append longer, chomp_append]
      rfl

theorem lines_ended_last {ended : List (List Char × LineEnd)} {last : List Char}
    (unbroken : ∀ line ∈ ended.map Prod.fst ++ [last], '\n' ∉ line) :
    lines (ended.flatMap (fun line => line.1 ++ line.2.chars) ++ last) =
      ended.map (fun line => line.2.cut line.1) ++ if last = [] then [] else [last] := by
  induction ended with
  | nil => exact lines_of_unbroken (unbroken last List.mem_cons_self)
  | cons first ended ih =>
      obtain ⟨line, ending⟩ := first
      rw [List.flatMap_cons, List.append_assoc, lines_ended (unbroken line List.mem_cons_self),
        ih fun line member => unbroken line (List.mem_cons_of_mem _ member)]
      rfl

theorem LinedText.lines_text (t : LinedText) :
    Text.lines t.text.toList =
      t.ended.map (fun line => line.2.cut line.1) ++ if t.last = [] then [] else [t.last] := by
  rw [LinedText.text, String.toList_ofList, LinedText.chars]
  exact lines_ended_last t.unbroken

/-- Every text is made of lines. -/
theorem exists_linedText (source : String) : ∃ t : LinedText, t.text = source := by
  suffices made : ∀ cs : List Char, ∃ t : LinedText, t.chars = cs by
    obtain ⟨t, whole⟩ := made source.toList
    refine ⟨t, ?_⟩
    rw [LinedText.text, whole, String.ofList_toList]
  intro cs
  induction cs with
  | nil => exact ⟨⟨[], [], by simp⟩, rfl⟩
  | cons c cs ih =>
      obtain ⟨⟨ended, last, unbroken⟩, rfl⟩ := ih
      by_cases lineFeed : c = '\n'
      · subst lineFeed
        refine ⟨⟨([], .lineFeed) :: ended, last, ?_⟩, rfl⟩
        exact List.forall_mem_cons.mpr ⟨List.not_mem_nil, unbroken⟩
      · have longer (line : List Char) (without : '\n' ∉ line) : '\n' ∉ c :: line := by
          rw [List.mem_cons, not_or]
          exact ⟨Ne.symm lineFeed, without⟩
        cases ended with
        | nil =>
            refine ⟨⟨[], c :: last, ?_⟩, rfl⟩
            exact List.forall_mem_singleton.mpr (longer last (unbroken last List.mem_cons_self))
        | cons first ended =>
            obtain ⟨here, others⟩ := List.forall_mem_cons.mp unbroken
            exact ⟨⟨(c :: first.1, first.2) :: ended, last,
              List.forall_mem_cons.mpr ⟨longer first.1 here, others⟩⟩, rfl⟩

end GraphQuery.Text
