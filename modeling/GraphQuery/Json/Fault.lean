/-!
# Faults of JSON text

A `Fault` is one way in which a text stops being JSON, and a `JsonPath` says where in the value the
reader was when it met one.
-/

namespace GraphQuery

/-- Why a text is not JSON. -/
inductive Fault
  | endInValue
  /-- The text ends within a word or a number. -/
  | endInWord
  | endInList
  | endInObject
  | endInString
  | expectedValue
  | expectedIdent
  | expectedCommaOrBracket
  | expectedCommaOrBrace
  | expectedColon
  | keyNotString
  | trailingComma
  | trailingCharacters
  | invalidNumber
  | numberOutOfRange
  | invalidEscape
  | controlCharacter
  | loneSurrogate
  | endOfHexEscape
  | recursionLimit
  deriving DecidableEq, Repr

def Fault.message : Fault → String
  | endInValue => "EOF while parsing a value"
  | endInWord => "EOF while parsing a value"
  | endInList => "EOF while parsing a list"
  | endInObject => "EOF while parsing an object"
  | endInString => "EOF while parsing a string"
  | expectedValue => "expected value"
  | expectedIdent => "expected ident"
  | expectedCommaOrBracket => "expected `,` or `]`"
  | expectedCommaOrBrace => "expected `,` or `\x7d`"
  | expectedColon => "expected `:`"
  | keyNotString => "key must be a string"
  | trailingComma => "trailing comma"
  | trailingCharacters => "trailing characters"
  | invalidNumber => "invalid number"
  | numberOutOfRange => "number out of range"
  | invalidEscape => "invalid escape"
  | controlCharacter => "control character (\\u0000-\\u001F) found while parsing a string"
  | loneSurrogate => "lone leading surrogate in hex escape"
  | endOfHexEscape => "unexpected end of hex escape"
  | recursionLimit => "recursion limit exceeded"

/-- One step into a JSON value. -/
inductive JsonStep
  | key (name : String)
  | index (position : Nat)
  /-- A place that has no key. -/
  | unnamed
  deriving DecidableEq, Repr

/-- Steps from the root. -/
abbrev JsonPath := List JsonStep

/-- Steps behind the first: a name follows a dot, an index stands in brackets. -/
def JsonPath.renderTail : JsonPath → String
  | [] => ""
  | .key name :: rest => "." ++ name ++ renderTail rest
  | .index i :: rest => "[" ++ toString i ++ "]" ++ renderTail rest
  | .unnamed :: rest => ".?" ++ renderTail rest

/-- `.` for the root, else the steps, without a dot before the first. -/
def JsonPath.render : JsonPath → String
  | [] => "."
  | .key name :: rest => name ++ JsonPath.renderTail rest
  | .unnamed :: rest => "?" ++ JsonPath.renderTail rest
  | path => JsonPath.renderTail path

end GraphQuery
