import GraphQuery.Json.Numeral
import GraphQuery.Json.StringLiteral

/-!
# Passing over a value in JSON text

`Skip.value` finds the end of a value that nobody wants. It is more lenient than reading: it sets no
limit to nesting and looks neither at surrogates nor at the range of numbers.
-/

namespace GraphQuery

/-- Blanks between the tokens of JSON text. -/
def isJsonBlank (c : Char) : Bool := c == ' ' || c == '\n' || c == '\t' || c == '\r'

def dropBlanks (cs : List Char) : List Char := cs.dropWhile isJsonBlank

/-- The remaining letters of `null`, `true` or `false`. -/
def readLetters : List Char → List Char → Except Fault (List Char)
  | [], cs => .ok cs
  | _ :: _, [] => .error .endInWord
  | l :: letters, c :: cs => if c = l then readLetters letters cs else .error .expectedIdent

namespace Skip

mutual

/-- What follows the value at the head of a text. -/
def value : Nat → List Char → Except Fault (List Char)
  | 0, _ => .error .recursionLimit
  | fuel + 1, cs =>
    match dropBlanks cs with
    | [] => .error .endInValue
    | c :: rest =>
      if c = 'n' then readLetters ['u', 'l', 'l'] rest
      else if c = 't' then readLetters ['r', 'u', 'e'] rest
      else if c = 'f' then readLetters ['a', 'l', 's', 'e'] rest
      else if c = '-' ∨ c.isDigit then
        match Numeral.read (c :: rest) with
        | .ok (_, rest) => .ok rest
        | .error _ => .error .invalidNumber
      else if c = '"' then StringLiteral.skip rest
      else if c = '[' then
        match dropBlanks rest with
        | [] => .error .endInList
        | ']' :: rest => .ok rest
        | rest => items fuel rest
      else if c = '\x7b' then
        match dropBlanks rest with
        | [] => .error .endInObject
        | '\x7d' :: rest => .ok rest
        | rest => entries fuel rest
      else .error .expectedValue

/-- What follows a list whose next item is due. -/
def items : Nat → List Char → Except Fault (List Char)
  | 0, _ => .error .recursionLimit
  | fuel + 1, cs =>
    match value fuel cs with
    | .error f => .error f
    | .ok rest =>
      match dropBlanks rest with
      | [] => .error .endInList
      | ',' :: rest => items fuel rest
      | ']' :: rest => .ok rest
      | _ => .error .expectedCommaOrBracket

/-- What follows an object whose next key is due. -/
def entries : Nat → List Char → Except Fault (List Char)
  | 0, _ => .error .recursionLimit
  | fuel + 1, cs =>
    match dropBlanks cs with
    | [] => .error .endInObject
    | '"' :: rest =>
      match StringLiteral.skip rest with
      | .error f => .error f
      | .ok rest =>
        match dropBlanks rest with
        | [] => .error .endInObject
        | ':' :: rest =>
          match value fuel rest with
          | .error f => .error f
          | .ok rest =>
            match dropBlanks rest with
            | [] => .error .endInObject
            | ',' :: rest => entries fuel rest
            | '\x7d' :: rest => .ok rest
            | _ => .error .expectedCommaOrBrace
        | _ => .error .expectedColon
    | _ => .error .keyNotString

end

end Skip

/-- What follows the value at the head of a text that nobody wants. Every call consumes a character
or hands the same text on once, so twice the length bounds them. -/
def skipValue (cs : List Char) : Except Fault (List Char) := Skip.value (2 * cs.length + 2) cs

end GraphQuery
