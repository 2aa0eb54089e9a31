import GraphQuery.Descriptor.Basic
import GraphQuery.Json.Text

/-!
# Descriptors in words

`Descriptor.describe` is the text of a descriptor in messages, and `TypeError` is the message that a
value does not have the shape it should have: where it was met, what was expected, what was found.
-/

namespace GraphQuery

namespace Descriptor

mutual

/-- The shape in words. -/
def describe : Descriptor → String
  | string => "string"
  | number => "number"
  | bool => "bool"
  | null => "null"
  | absent => "none"
  | never => "never"
  | date => "datetime"
  | uuid => "uuid"
  | literal l => l.toJson.compact
  | option inner => "option<" ++ describe inner ++ ">"
  | record none => "record"
  | record (some table) => "record<" ++ table ++ ">"
  | object fields => "\x7b " ++ ", ".intercalate (describeFields fields) ++ " \x7d"
  | list item => "array<" ++ describe item ++ ">"
  | tuple items => "[" ++ ", ".intercalate (describeItems items) ++ "]"
  | union alts => " | ".intercalate (describeItems alts)

def describeFields : List (String × Descriptor) → List String
  | [] => []
  | (name, t) :: rest => (name ++ ": " ++ describe t) :: describeFields rest

def describeItems : List Descriptor → List String
  | [] => []
  | t :: rest => describe t :: describeItems rest

end

end Descriptor

/-- What a descriptor expected to find. -/
inductive Expected
  | one (text : String)
  /-- Alternatives, the last one behind `or`. -/
  | anyOf (texts : List String)
  /-- One text for each position. -/
  | tuple (texts : List String)
  deriving DecidableEq, Repr

def Expected.render : Expected → String
  | one text => text
  | anyOf texts => match texts.reverse with
    | [] => "never"
    | [text] => text
    | last :: init => ", ".intercalate init.reverse ++ " or " ++ last
  | tuple texts => "[" ++ ", ".intercalate texts ++ "]"

def Descriptor.expected : Descriptor → Expected
  | .union alts => .anyOf (describeItems alts)
  | .tuple items => .tuple (describeItems items)
  | t => .one t.describe

/-- One step into a value: a field, or an item of a list. -/
inductive ValueStep
  | field (name : String)
  | item (position : Nat)
  deriving DecidableEq, Repr

/-- `.name` or `[position]`. -/
def ValueStep.render : ValueStep → String
  | field name => "." ++ name
  | item i => "[" ++ toString i ++ "]"

/-- A value does not have the shape it should have. -/
structure TypeError where
  tag : Tag
  expected : Expected
  /-- Nothing when the value was absent. -/
  value : Option Json
  path : List ValueStep

/-- The same with the path in text, as it is reported. -/
structure LocatedError where
  tag : Tag
  expected : Expected
  value : Option Json
  /-- Empty when the whole value is meant. -/
  path : String

namespace LocatedError

/-- The place of the failing value; `.` is the whole value. -/
def place (e : LocatedError) : String :=
  if e.path.isEmpty then "." else e.path

def found (e : LocatedError) : String :=
  match e.value with
  | none => "NONE"
  | some v => v.compact

def message (e : LocatedError) : String :=
  e.tag.name ++ " mismatch at `" ++ e.place ++ "`: expected " ++ e.expected.render ++ ", found "
    ++ e.found

end LocatedError

namespace TypeError

/-- The failure with its path in text, met behind a path in text. -/
def located (front : String) (e : TypeError) : LocatedError :=
  ⟨e.tag, e.expected, e.value, front ++ String.join (e.path.map ValueStep.render)⟩

def message (e : TypeError) : String := (e.located "").message

/-- The same failure, seen from one step further out. -/
def under (step : ValueStep) (e : TypeError) : TypeError := { e with path := step :: e.path }

end TypeError

/-- The failure of a value that is not of this shape itself. -/
def Descriptor.mismatch (t : Descriptor) (value : Option Json) : TypeError :=
  ⟨t.tag, t.expected, value, []⟩

end GraphQuery
