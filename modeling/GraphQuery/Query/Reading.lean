import GraphQuery.Query.Piece

/-!
# Reading query text

`lexemes` finds the parameters in query text: a dollar sign and the word behind it. Names between
back-ticks and strings between double quotes are passed over; a backslash in them escapes the
character behind it. All parameters that are not reserved are placeholders of variables. A placeholder
can be renumbered without touching anything else in the text.
-/

namespace GraphQuery.Reading

/-- What query text is made of: parameters, and single characters. -/
inductive Lexeme
  | char (c : Char)
  | parameter (name : String)
  deriving DecidableEq, Repr

/-- Where a reader is in the text. -/
inductive Place
  | outside
  /-- In a quoted token, up to its closing mark. -/
  | quoted (mark : Char)
  /-- Behind a backslash in a quoted token. -/
  | escaped (mark : Char)
  /-- Behind a dollar sign and the start of a name. -/
  | parameter (name : List Char)
  deriving DecidableEq, Repr

/-- The place behind a character that stands outside of everything. -/
def Place.behind (c : Char) : Place := if c = '\x60' ∨ c = '"' then .quoted c else .outside

/-- The place behind a character of a quoted token. -/
def Place.within (mark c : Char) : Place :=
  if c = '\\' then .escaped mark else if c = mark then .outside else .quoted mark

/-- Read on from a place. -/
def read : Place → List Char → List Lexeme
  | .parameter name, [] => [.parameter (String.ofList name)]
  | _, [] => []
  | .outside, c :: rest =>
    if c = '$' then read (.parameter []) rest else .char c :: read (.behind c) rest
  | .quoted mark, c :: rest => .char c :: read (.within mark c) rest
  | .escaped mark, c :: rest => .char c :: read (.quoted mark) rest
  | .parameter name, c :: rest =>
    if Name.isWordChar c then read (.parameter (name ++ [c])) rest
    else .parameter (String.ofList name) ::
      (if c = '$' then read (.parameter []) rest else .char c :: read (.behind c) rest)

/-- The lexemes of a text. -/
def lexemes (text : String) : List Lexeme := read .outside text.toList

namespace Lexeme

/-- The characters that a lexeme stands for. -/
def chars : Lexeme → List Char
  | char c => [c]
  | parameter name => '$' :: name.toList

def parameter? : Lexeme → Option String
  | char _ => none
  | parameter name => some name

end Lexeme

/-- The parameters that are records and rejected input, not variables. -/
def reserved : List String := ["this", "parent", "input"]

/-- The names of the variables that a text has placeholders for, from left to right. -/
def placeholders (text : String) : List String :=
  ((lexemes text).filterMap Lexeme.parameter?).filter fun name => !reserved.contains name

/-- The number of the variable with the given name. -/
def variableNumber? (name : String) : Option Nat :=
  let n := Nat.ofDigitChars 10 (name.toList.drop 2) 0
  if variableName n = name then some n else none

/-- The name of the variable that stands so many places behind; other names stay. -/
def shiftName (offset : Nat) (name : String) : String :=
  match variableNumber? name with
  | some n => variableName (n + offset)
  | none => name

def Lexeme.shift (offset : Nat) : Lexeme → Lexeme
  | char c => .char c
  | parameter name => .parameter (shiftName offset name)

/-- Add to the number of every placeholder in a text. -/
def renumber (offset : Nat) (text : String) : String :=
  String.ofList ((lexemes text).flatMap fun lexeme => (lexeme.shift offset).chars)

end GraphQuery.Reading

namespace GraphQuery.Compiled

/-- The same query with its variables numbered from an offset on. -/
def shift (offset : Nat) (c : Compiled) : Compiled :=
  ⟨Reading.renumber offset c.text, c.vars.map fun (name, v) => (Reading.shiftName offset name, v)⟩

end GraphQuery.Compiled
