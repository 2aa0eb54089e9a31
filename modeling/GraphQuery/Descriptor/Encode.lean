import GraphQuery.Descriptor.Basic

/-!
# Descriptors as JSON

A descriptor is an object with its kind under `kind` and, for a kind that has parts, the parts under
`of`.
-/

namespace GraphQuery

/-- The kinds of descriptors in JSON; lists and tuples are told apart by what stands under `of`. -/
inductive Kind
  | string | number | bool | null | none | never | date | uuid | literal | option | record
  | object | array | union
  deriving DecidableEq, Repr

namespace Kind

/-- All kinds, in the order in which messages list them. -/
def all : List Kind :=
  [string, number, bool, null, none, never, date, uuid, literal, option, record, object, array,
    union]

def name : Kind → String
  | string => "string"
  | number => "number"
  | bool => "bool"
  | null => "null"
  | none => "none"
  | never => "never"
  | date => "date"
  | uuid => "uuid"
  | literal => "literal"
  | option => "option"
  | record => "record"
  | object => "object"
  | array => "array"
  | union => "union"

/-- All names, in the same order. -/
def names : List String := all.map name

end Kind

namespace Descriptor

/-- A kind without parts. -/
def encodeUnit (kind : Kind) : Json := .object [("kind", .string kind.name)]

/-- A kind with its parts. -/
def encodeWith (kind : Kind) (parts : Json) : Json :=
  .object [("kind", .string kind.name), ("of", parts)]

mutual

/-- The descriptor as a JSON value. -/
def encode : Descriptor → Json
  | string => encodeUnit .string
  | number => encodeUnit .number
  | bool => encodeUnit .bool
  | null => encodeUnit .null
  | absent => encodeUnit .none
  | never => encodeUnit .never
  | date => encodeUnit .date
  | uuid => encodeUnit .uuid
  | literal l => encodeWith .literal l.toJson
  | option inner => encodeWith .option (encode inner)
  | record table => encodeWith .record (match table with
    | none => .null
    | some t => .string t)
  | object fields => encodeWith .object (.object (encodeFields fields))
  | list item => encodeWith .array (encode item)
  | tuple items => encodeWith .array (.array (encodeItems items))
  | union alts => encodeWith .union (.array (encodeItems alts))

def encodeItems : List Descriptor → List Json
  | [] => []
  | t :: rest => encode t :: encodeItems rest

def encodeFields : List (String × Descriptor) → List (String × Json)
  | [] => []
  | (name, t) :: rest => (name, encode t) :: encodeFields rest

end

end Descriptor

end GraphQuery
