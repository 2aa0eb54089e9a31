import GraphQuery.Json.StringLiteral
import GraphQuery.Proofs.Construction.Congruence
import GraphQuery.Text.NameReading

/-!
# Reading terms

`TermReading.TermAt cs t rest` says that the text `cs` starts with the term `t` and goes on with `rest`.
A term is an operand, and perhaps an operation and a second operand. An operand is a parameter, a
literal, a call, a field of the record or a term in parentheses, with the path behind it; operations in
front of it take all of that. Values are read as null, since the text has only their placeholders.
-/

namespace GraphQuery

namespace Operation

/-- What is written between the operands. -/
def infixText? (op : Operation) : Option String :=
  match op.form with
  | .between token => some (" " ++ token ++ " ")
  | _ => none

/-- The path of the function that is called. -/
def callPath? (op : Operation) : Option String :=
  match op.form with
  | .call path => some path
  | .callSeparated path => some path
  | _ => none

end Operation

namespace TermReading

/-- Read an operation that stands between its operands. -/
def infix? (cs : List Char) : Option (Operation × List Char) :=
  Operation.all.findSome? fun op => op.infixText?.bind fun text =>
    if text.toList.isPrefixOf cs then some (op, cs.drop text.toList.length) else none

/-- A character of the path of a function. -/
def isPathChar (c : Char) : Bool := Name.isWordChar c || c == ':'

/-- Read the path of a function and the parenthesis behind it. -/
def call? (cs : List Char) : Option (Operation × List Char) :=
  match cs.dropWhile isPathChar with
  | '(' :: rest =>
    (Operation.all.find? fun op =>
      op.callPath? == some (String.ofList (cs.takeWhile isPathChar))).map (·, rest)
  | _ => none

/-- Read a parameter behind its dollar sign. -/
def parameter (cs : List Char) : Term × List Char :=
  (if cs.takeWhile Name.isWordChar = "this".toList then .record ⟨0⟩ else .value .null,
    cs.dropWhile Name.isWordChar)

/-- Read a position and the bracket behind it. -/
def position? (cs : List Char) : Option (Nat × List Char) :=
  match cs.dropWhile Char.isDigit with
  | ']' :: rest => some (Nat.ofDigitChars 10 (cs.takeWhile Char.isDigit) 0, rest)
  | _ => none

/-- A call with its arguments as they are written. -/
def applied (op : Operation) : List Term → Option Term
  | [] => none
  | first :: rest => match op.form, rest with
    | .callSeparated _, receiver :: more => some (.apply op receiver (first :: more))
    | _, arguments => some (.apply op first arguments)

/-- A name, or the path of a function, starts the text. -/
def StartsToken (cs : List Char) : Prop := ∀ c ∈ cs.head?, isPathChar c = true ∨ c = '\x60'

/-- `PathAt t cs u rest`: the text goes on with a path that leads from the term `t` to `u`. -/
inductive PathAt : Term → List Char → Term → List Char → Prop
  | field {t u : Term} {cs behind rest : List Char} {name : String} :
      Name.read? cs = some (name, behind) → PathAt (.get t (.field name)) behind u rest →
      PathAt t ('.' :: cs) u rest
  | index {t u : Term} {cs behind rest : List Char} {i : Nat} :
      position? cs = some (i, behind) → PathAt (.get t (.index i)) behind u rest →
      PathAt t ('[' :: cs) u rest
  | stop {t : Term} {cs : List Char} : (∀ c ∈ cs.head?, c ≠ '.' ∧ c ≠ '[') → PathAt t cs t cs

mutual

/-- An operand, and perhaps an operation and a second operand. -/
inductive TermAt : List Char → Term → List Char → Prop
  | operand {t : Term} {cs rest : List Char} : OperandAt cs t rest → infix? rest = none →
      TermAt cs t rest
  | between {left right : Term} {op : Operation} {cs behind further rest : List Char} :
      OperandAt cs left behind → infix? behind = some (op, further) → OperandAt further right rest →
      TermAt cs (.apply op left [right]) rest

inductive OperandAt : List Char → Term → List Char → Prop
  | before {t : Term} {cs rest : List Char} : OperandAt cs t rest →
      OperandAt ('!' :: cs) (.apply .not t []) rest
  | parameter {t : Term} {cs rest : List Char} :
      PathAt (parameter cs).1 (parameter cs).2 t rest → OperandAt ('$' :: cs) t rest
  | enclosed {t u : Term} {cs behind rest : List Char} : TermAt cs t (')' :: behind) →
      PathAt t behind u rest → OperandAt ('(' :: cs) u rest
  | noItems {t : Term} {cs rest : List Char} : PathAt (.array []) cs t rest →
      OperandAt ('[' :: ']' :: cs) t rest
  | items {items : List Term} {t : Term} {cs behind rest : List Char} :
      ItemsAt ']' cs items behind → PathAt (.array items) behind t rest → OperandAt ('[' :: cs) t rest
  | noEntries {t : Term} {cs rest : List Char} : PathAt (.object []) cs t rest →
      OperandAt ('\x7b' :: '\x7d' :: cs) t rest
  | entries {entries : List (String × Term)} {t : Term} {cs behind rest : List Char} :
      EntriesAt cs entries behind → PathAt (.object entries) behind t rest →
      OperandAt ('\x7b' :: ' ' :: cs) t rest
  | call {op : Operation} {terms : List Term} {t u : Term} {cs behind further rest : List Char} :
      StartsToken cs → call? cs = some (op, behind) → ItemsAt ')' behind terms further →
      applied op terms = some t → PathAt t further u rest → OperandAt cs u rest
  | field {name : String} {t : Term} {cs behind rest : List Char} :
      StartsToken cs → call? cs = none → Name.read? cs = some (name, behind) →
      PathAt (.get (.record ⟨0⟩) (.field name)) behind t rest → OperandAt cs t rest

/-- Terms between commas, up to the closing mark. -/
inductive ItemsAt : Char → List Char → List Term → List Char → Prop
  | more {closing : Char} {t : Term} {ts : List Term} {cs behind rest : List Char} :
      TermAt cs t (',' :: ' ' :: behind) → ItemsAt closing behind ts rest →
      ItemsAt closing cs (t :: ts) rest
  | last {closing : Char} {t : Term} {cs rest : List Char} : closing ≠ ',' →
      TermAt cs t (closing :: rest) → ItemsAt closing cs [t] rest

/-- Entries between commas, up to the closing brace. -/
inductive EntriesAt : List Char → List (String × Term) → List Char → Prop
  | more {key : String} {t : Term} {entries : List (String × Term)}
      {cs behind further rest : List Char} :
      StringLiteral.read cs = .ok (key, ':' :: ' ' :: behind) →
      TermAt behind t (',' :: ' ' :: further) → EntriesAt further entries rest →
      EntriesAt ('"' :: cs) ((key, t) :: entries) rest
  | last {key : String} {t : Term} {cs behind rest : List Char} :
      StringLiteral.read cs = .ok (key, ':' :: ' ' :: behind) →
      TermAt behind t (' ' :: '\x7d' :: rest) → EntriesAt ('"' :: cs) [(key, t)] rest

end

end TermReading

end GraphQuery
