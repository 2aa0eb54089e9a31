import GraphQuery.Json.Basic
import GraphQuery.Text.Split

/-!
# JSON Pointer

A pointer is empty, or a slash in front of every reference token. In a token `~1` is a slash and
`~0` a tilde.
-/

namespace GraphQuery.JsonPointer

/-- Replace each occurrence of a tilde before `digit`. -/
def unescape (digit : Char) (by' : Char) : List Char → List Char
  | '~' :: c :: rest =>
    if c = digit then by' :: unescape digit by' rest else '~' :: unescape digit by' (c :: rest)
  | c :: rest => c :: unescape digit by' rest
  | [] => []

/-- The name that a reference token stands for: slashes first, then tildes. -/
def tokenName (token : List Char) : String :=
  String.ofList (unescape '0' '~' (unescape '1' '/' token))

/-- The reference tokens of a pointer; none when the text is no pointer. -/
def tokens? (pointer : String) : Option (List String) :=
  match pointer.toList with
  | [] => some []
  | '/' :: rest => some ((Text.pieces '/' rest).map tokenName)
  | _ => none

/-- A position in a list: digits without a leading zero. -/
def position? (token : String) : Option Nat :=
  let cs := token.toList
  if cs.isEmpty || !cs.all Char.isDigit || (cs.head? == some '0' && cs.length != 1) then none
  else some (cs.foldl (fun n c => 10 * n + (c.toNat - '0'.toNat)) 0)

/-- Follow tokens from a value. -/
def follow (v : Json) : List String → Option Json
  | [] => some v
  | token :: rest =>
    match v with
    | .object fields => (fields.lookup token).bind fun v => follow v rest
    | .array items => ((position? token).bind fun i => items[i]?).bind fun v => follow v rest
    | _ => none

end JsonPointer

/-- The part of a value that a pointer selects. -/
def Json.pointer? (v : Json) (pointer : String) : Option Json :=
  (JsonPointer.tokens? pointer).bind (JsonPointer.follow v)

end GraphQuery
