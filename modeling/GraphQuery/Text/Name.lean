import GraphQuery.Text.Split

/-!
# Names in query text

Table and field names are written by `Name.ident`: a bare word stands as it is, any other name
between back-ticks, in which a backslash escapes a backslash or a back-tick. Backslashes are escaped
before back-ticks, so those that escape a back-tick are written once. A field path is written part by
part, `Name.idiom`.
-/

namespace GraphQuery.Name

/-- A character that a bare word may start with. -/
def isWordStart (c : Char) : Bool := c.isAlpha || c == '_'

/-- A character that a bare word may go on with. -/
def isWordChar (c : Char) : Bool := c.isAlphanum || c == '_'

/-- ASCII letters, digits and underscores, no digit first. -/
def isBareWord : List Char → Bool
  | [] => false
  | c :: rest => isWordStart c && rest.all isWordChar

theorem isWordChar_of_isBareWord {name : List Char} (bare : isBareWord name = true) :
    ∀ c ∈ name, isWordChar c = true := by
  cases name with
  | nil => cases bare
  | cons first rest =>
      simp only [isBareWord, Bool.and_eq_true, List.all_eq_true] at bare
      intro c member
      rcases List.mem_cons.mp member with rfl | member
      · have starts := bare.1
        simp only [isWordStart, Bool.or_eq_true] at starts
        simp only [isWordChar, Char.isAlphanum, Bool.or_eq_true]
        exact starts.imp_left Or.inl
      · exact bare.2 c member

/-- Put a backslash in front of every occurrence of a character. -/
def escapeAll (special : Char) (text : List Char) : List Char :=
  text.flatMap fun c => if c = special then ['\\', c] else [c]

/-- The characters of a name between back-ticks. -/
def escaped (name : List Char) : List Char := escapeAll '\x60' (escapeAll '\\' name)

/-- A character between back-ticks. -/
def escape (c : Char) : List Char :=
  if c = '\\' ∨ c = '\x60' then ['\\', c] else [c]

/-- Escaping one character after the other escapes each character of the name once. -/
theorem escaped_eq_flatMap (name : List Char) : escaped name = name.flatMap escape := by
  induction name with
  | nil => rfl
  | cons c rest ih =>
      have split : escaped (c :: rest) =
          escapeAll '\x60' (if c = '\\' then ['\\', c] else [c]) ++ escaped rest := by
        simp only [escaped, escapeAll, List.flatMap_cons, List.flatMap_append]
      rw [split, ih, List.flatMap_cons, escape]
      by_cases backslash : c = '\\'
      · subst backslash
        rfl
      · by_cases tick : c = '\x60'
        · subst tick
          rfl
        · simp [escapeAll, backslash, tick]

/-- The characters of a name as a token of query text. -/
def token (name : List Char) : List Char :=
  if isBareWord name then name else '\x60' :: escaped name ++ ['\x60']

/-- A table or field name as a token of query text. -/
def ident (name : String) : String := String.ofList (token name.toList)

/-- The parts of a dotted field path. -/
def parts (path : String) : List String := Text.split '.' path

theorem parts_ne_nil (path : String) : parts path ≠ [] := by
  rw [parts, Text.split, Ne, List.map_eq_nil_iff]
  exact Text.pieces_ne_nil '.' path.toList

/-- A dotted field path in query text, each part a token of its own. -/
def idiom (path : String) : String := ".".intercalate ((parts path).map ident)

/-- Several field paths, separated by commas. -/
def idioms (paths : List String) : String := ", ".intercalate (paths.map idiom)

end GraphQuery.Name
