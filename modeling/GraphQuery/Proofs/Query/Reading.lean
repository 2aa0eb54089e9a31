import GraphQuery.Query.Reading
import GraphQuery.Proofs.Json.StringLiteral

/-!
# Laws of reading

Reading loses nothing: the lexemes of a text spell the text. Text is `Plain` when it is read by
itself whatever stands behind it, and has no placeholder in it; keywords, names and keys are plain.
A parameter is read by itself only when the text behind it does not go on with its word.
-/

namespace GraphQuery.Reading

/-- The characters that were read before a place and are no lexeme yet. -/
def Place.pending : Place → List Char
  | .parameter name => '$' :: name
  | _ => []

@[simp] theorem read_outside_nil : read .outside [] = [] := rfl

/-- What is read is what stands there, and nothing is lost. -/
theorem chars_read (place : Place) (cs : List Char) :
    (read place cs).flatMap Lexeme.chars = place.pending ++ cs := by
  have behind_pending : ∀ c, (Place.behind c).pending = [] := by
    intro c
    unfold Place.behind
    split <;> rfl
  have within_pending : ∀ mark c, (Place.within mark c).pending = [] := by
    intro mark c
    unfold Place.within
    split
    · rfl
    · split <;> rfl
  induction cs generalizing place with
  | nil =>
      cases place with
      | parameter name => simp [read, Lexeme.chars, Place.pending]
      | _ => rfl
  | cons c rest ih =>
      -- One character outside, which also ends a parameter.
      have outside : (if c = '$' then read (.parameter []) rest
          else .char c :: read (.behind c) rest).flatMap Lexeme.chars = c :: rest := by
        split
        · next dollar =>
            rw [ih, dollar]
            rfl
        · rw [List.flatMap_cons, ih, behind_pending]
          rfl
      cases place with
      | outside => exact outside
      | quoted mark =>
          rw [read, List.flatMap_cons, ih, within_pending]
          rfl
      | escaped mark =>
          rw [read, List.flatMap_cons, ih]
          rfl
      | parameter name =>
          rw [read]
          split
          · rw [ih]
            simp [Place.pending]
          · rw [List.flatMap_cons, outside]
            simp [Lexeme.chars, Place.pending]

/-- The lexemes of a text spell the text. -/
theorem chars_lexemes (text : String) : (lexemes text).flatMap Lexeme.chars = text.toList :=
  chars_read .outside text.toList

section Variables

theorem isWordChar_of_mem_toDigits {n : Nat} {c : Char} (digit : c ∈ Nat.toDigits 10 n) :
    Name.isWordChar c = true := by
  have decimal := Nat.isDigit_of_mem_toDigits (by omega) (by omega) digit
  simp [Name.isWordChar, Char.isAlphanum, decimal]

theorem toList_variableName (n : Nat) :
    (variableName n).toList = '_' :: 'v' :: Nat.toDigits 10 n := by
  simp [variableName]

theorem isWordChar_of_mem_variableName {n : Nat} {c : Char}
    (member : c ∈ (variableName n).toList) : Name.isWordChar c = true := by
  rw [toList_variableName] at member
  rcases List.mem_cons.mp member with rfl | member
  · decide
  · rcases List.mem_cons.mp member with rfl | member
    · decide
    · exact isWordChar_of_mem_toDigits member

/-- The name of a variable gives its number back. -/
@[simp] theorem variableNumber?_variableName (n : Nat) :
    variableNumber? (variableName n) = some n := by
  have digits : Nat.ofDigitChars 10 ((variableName n).toList.drop 2) 0 = n := by
    rw [toList_variableName]
    exact Nat.ofDigitChars_ten_toDigits
  unfold variableNumber?
  rw [digits]
  exact if_pos rfl

theorem variableName_injective : Function.Injective variableName := by
  intro m n same
  have number := variableNumber?_variableName m
  rw [same, variableNumber?_variableName] at number
  exact (Option.some.inj number).symm

@[simp] theorem shiftName_variableName (offset n : Nat) :
    shiftName offset (variableName n) = variableName (n + offset) := by
  rw [shiftName, variableNumber?_variableName]

/-- Reserved names are no names of variables. -/
theorem shiftName_of_reserved {name : String} (offset : Nat) (fixed : name ∈ reserved) :
    shiftName offset name = name := by
  have none : variableNumber? name = none := by
    revert name
    decide
  rw [shiftName, none]

theorem variableName_not_reserved (n : Nat) : variableName n ∉ reserved := by
  intro fixed
  have number := variableNumber?_variableName n
  have none : ∀ name ∈ reserved, variableNumber? name = Option.none := by decide
  rw [none _ fixed] at number
  cases number

end Variables

/-- The text does not go on with a word. -/
def Delimited (cs : List Char) : Prop := ∀ c ∈ cs.head?, Name.isWordChar c = false

/-- Text that is read by itself whatever stands behind it, and names no variable. -/
structure Plain (cs : List Char) : Prop where
  apart : ∀ rest, read .outside (cs ++ rest) = read .outside cs ++ read .outside rest
  fixed : ∀ name, .parameter name ∈ read .outside cs → name ∈ reserved

/-- A parameter ends where its word does. -/
theorem read_parameter {name cs rest : List Char} (word : ∀ c ∈ cs, Name.isWordChar c = true)
    (delimited : Delimited rest) :
    read (.parameter name) (cs ++ rest) =
      .parameter (String.ofList (name ++ cs)) :: read .outside rest := by
  induction cs generalizing name with
  | nil =>
      rw [List.nil_append, List.append_nil]
      cases rest with
      | nil => rfl
      | cons c rest =>
          have ends : Name.isWordChar c = false := delimited c rfl
          simp [read, ends]
  | cons c cs ih =>
      have goesOn : Name.isWordChar c = true := word c List.mem_cons_self
      have others : ∀ d ∈ cs, Name.isWordChar d = true := by
        intro d member
        exact word d (List.mem_cons_of_mem c member)
      rw [List.cons_append, read, if_pos goesOn, ih others, List.append_assoc]
      rfl

/-- A character that neither opens a quoted token nor starts a parameter. -/
def isQuiet (c : Char) : Bool := c != '$' && c != '\x60' && c != '"'

theorem isQuiet_of_isWordChar {c : Char} (word : Name.isWordChar c = true) : isQuiet c = true := by
  have marks : Name.isWordChar '$' = false ∧ Name.isWordChar '\x60' = false ∧
      Name.isWordChar '"' = false := by decide
  have dollar : c ≠ '$' := by rintro rfl; simp [marks] at word
  have tick : c ≠ '\x60' := by rintro rfl; simp [marks] at word
  have quote : c ≠ '"' := by rintro rfl; simp [marks] at word
  simp [isQuiet, dollar, tick, quote]

theorem read_quiet {c : Char} (quiet : isQuiet c = true) (rest : List Char) :
    read .outside (c :: rest) = .char c :: read .outside rest := by
  simp only [isQuiet, Bool.and_eq_true, bne_iff_ne, ne_eq] at quiet
  have behind : Place.behind c = .outside := by simp [Place.behind, quiet]
  rw [read, if_neg quiet.1.1, behind]

namespace Plain

theorem nil : Plain [] := ⟨fun _ => rfl, by simp [read]⟩

theorem append {cs ds : List Char} (first : Plain cs) (second : Plain ds) : Plain (cs ++ ds) := by
  refine ⟨?_, ?_⟩
  · intro rest
    rw [List.append_assoc, first.apart, first.apart, second.apart, List.append_assoc]
  · intro name member
    rw [first.apart] at member
    rcases List.mem_append.mp member with member | member
    · exact first.fixed name member
    · exact second.fixed name member

theorem of_quiet {cs : List Char} (quiet : ∀ c ∈ cs, isQuiet c = true) : Plain cs := by
  induction cs with
  | nil => exact nil
  | cons c cs ih =>
      have rest := ih fun d member => quiet d (List.mem_cons_of_mem c member)
      have first := read_quiet (quiet c List.mem_cons_self)
      refine ⟨?_, ?_⟩
      · intro behind
        rw [List.cons_append, first, first, rest.apart, List.cons_append]
      · intro name member
        rw [first] at member
        rcases List.mem_cons.mp member with equal | member
        · cases equal
        · exact rest.fixed name member

/-- A quiet character may be taken off. -/
theorem tail {c : Char} {cs : List Char} (quiet : isQuiet c = true) (plain : Plain (c :: cs)) :
    Plain cs := by
  have first := read_quiet quiet
  refine ⟨?_, ?_⟩
  · intro rest
    have apart := plain.apart rest
    rw [List.cons_append, first, first, List.cons_append] at apart
    exact (List.cons.inj apart).2
  · intro name member
    refine plain.fixed name ?_
    rw [first]
    exact List.mem_cons_of_mem _ member

/-- Plain texts with a plain text between each two. -/
theorem intercalate {separator : List Char} (between : Plain separator) {texts : List (List Char)}
    (plain : ∀ cs ∈ texts, Plain cs) : Plain (separator.intercalate texts) := by
  induction texts with
  | nil => exact nil
  | cons cs rest ih =>
      have head := plain cs List.mem_cons_self
      have tail := ih fun ds member => plain ds (List.mem_cons_of_mem cs member)
      cases rest with
      | nil => simpa [List.intercalate] using head
      | cons next more =>
          rw [List.intercalate_cons_cons]
          exact (head.append between).append tail

end Plain

section Quoted

/-- Characters that leave a quoted token as they found it, whatever stands behind them: each of them
is no mark and no backslash, or stands behind a backslash. -/
def Inside (mark : Char) (cs : List Char) : Prop :=
  ∀ rest, read (.quoted mark) (cs ++ rest) = cs.map .char ++ read (.quoted mark) rest

variable {mark : Char}

theorem Inside.single {c : Char} (noMark : c ≠ mark) (noEscape : c ≠ '\\') : Inside mark [c] := by
  intro rest
  rw [List.singleton_append, read, Place.within, if_neg noEscape, if_neg noMark]
  rfl

theorem Inside.escape (c : Char) : Inside mark ['\\', c] := by
  intro rest
  show .char '\\' :: read (Place.within mark '\\') (c :: rest) = _
  rw [Place.within, if_pos rfl, read]
  rfl

theorem Inside.append {cs ds : List Char} (first : Inside mark cs) (second : Inside mark ds) :
    Inside mark (cs ++ ds) := by
  intro rest
  rw [List.append_assoc, first, second, List.map_append, List.append_assoc]

theorem Inside.flatMap {escape : Char → List Char} (inside : ∀ c, Inside mark (escape c))
    (cs : List Char) : Inside mark (cs.flatMap escape) := by
  induction cs with
  | nil => exact fun _ => rfl
  | cons c cs ih =>
      rw [List.flatMap_cons]
      exact (inside c).append ih

/-- A quoted token is passed over to its closing mark. -/
theorem Plain.quoted {cs : List Char} (opens : Place.behind mark = .quoted mark)
    (noParameter : mark ≠ '$') (noEscape : mark ≠ '\\') (inside : Inside mark cs) :
    Plain (mark :: cs ++ [mark]) := by
  have through : ∀ rest, read .outside (mark :: cs ++ [mark] ++ rest) =
      .char mark :: cs.map .char ++ .char mark :: read .outside rest := by
    intro rest
    have closes : Place.within mark mark = .outside := by simp [Place.within, noEscape]
    rw [List.append_assoc, List.cons_append, read, if_neg noParameter, opens, inside,
      List.singleton_append, read, closes]
    rfl
  have alone := through []
  rw [List.append_nil] at alone
  refine ⟨?_, ?_⟩
  · intro rest
    rw [through, alone]
    simp [read]
  · intro name member
    rw [alone] at member
    simp [read] at member

/-- A name is plain, with or without back-ticks. -/
theorem plain_token (name : List Char) : Plain (Name.token name) := by
  unfold Name.token
  split
  · next bare =>
      refine Plain.of_quiet ?_
      intro c member
      exact isQuiet_of_isWordChar (Name.isWordChar_of_isBareWord bare c member)
  · rw [Name.escaped_eq_flatMap]
    refine Plain.quoted (by decide) (by decide) (by decide) (Inside.flatMap ?_ name)
    intro c
    unfold Name.escape
    split
    · exact .escape c
    · next unescaped =>
        rw [not_or] at unescaped
        exact .single unescaped.2 unescaped.1

theorem Inside.of_unclosed {cs : List Char} (unclosed : Json.Unclosed cs) : Inside '"' cs := by
  induction unclosed with
  | nil => exact fun _ => rfl
  | plain noQuote noEscape _ ih => exact (Inside.single noQuote noEscape).append ih
  | escape c _ ih => exact (Inside.escape c).append ih

/-- A string literal is plain. -/
theorem plain_quote (s : String) : Plain (Json.quote s).toList := by
  rw [Json.quote, String.toList_ofList]
  exact Plain.quoted (by decide) (by decide) (by decide) (.of_unclosed (Json.unclosed_escaped s.toList))

end Quoted

end GraphQuery.Reading
