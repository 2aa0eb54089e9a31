import GraphQuery.Json.Source
import GraphQuery.Json.Text
import GraphQuery.Text.Printable

/-!
# Decoding errors

Decoding reads a value as something more than JSON. A `DecodeError` says where it failed and why.
-/

namespace GraphQuery

/-- What a decoder met. -/
inductive Met
  | null
  | bool (value : Bool)
  | number (value : Number)
  | string (value : String)
  | sequence
  | map
  deriving DecidableEq

def Met.render : Met → String
  | null => "null"
  | bool b => "boolean `" ++ (if b then "true" else "false") ++ "`"
  | number (.int i) => "integer `" ++ (Number.int i).text ++ "`"
  | number (.float x) => "floating point `" ++ (Number.float x).text ++ "`"
  | string s => "string " ++ Text.quoted s
  | sequence => "sequence"
  | map => "map"

/-- Why a value cannot be decoded. -/
inductive DecodeCause
  | fault (fault : Fault)
  | wrongType (met : Met) (expected : String)
  | wrongValue (met : Met) (expected : String)
  | wrongLength (length : Nat) (expected : String)
  | unknownVariant (name : String) (choices : List String)
  | missingField (name : String)
  | duplicateField (name : String)
  /-- None of the forms that a value may have fits. -/
  | noForm (type : String)
  deriving DecidableEq

/-- The choices of a name in words. -/
def DecodeCause.choicesText (choices : List String) : String :=
  match choices.map fun c => "`" ++ c ++ "`" with
  | [] => "there are no variants"
  | [a] => "expected " ++ a
  | [a, b] => "expected " ++ a ++ " or " ++ b
  | all => "expected one of " ++ ", ".intercalate all

def DecodeCause.message : DecodeCause → String
  | fault f => f.message
  | wrongType met expected => "invalid type: " ++ met.render ++ ", expected " ++ expected
  | wrongValue met expected => "invalid value: " ++ met.render ++ ", expected " ++ expected
  | wrongLength n expected => "invalid length " ++ toString n ++ ", expected " ++ expected
  | unknownVariant name choices => "unknown variant `" ++ name ++ "`, " ++ choicesText choices
  | missingField name => "missing field `" ++ name ++ "`"
  | duplicateField name => "duplicate field `" ++ name ++ "`"
  | noForm type => "data did not match any variant of untagged enum " ++ type

/-- A value cannot be decoded. -/
structure DecodeError where
  path : JsonPath
  cause : DecodeCause
  deriving DecidableEq

namespace DecodeError

/-- A failure of the value itself. -/
def here (cause : DecodeCause) : DecodeError := ⟨[], cause⟩

/-- The same failure, seen from one step further out. -/
def under (step : JsonStep) (e : DecodeError) : DecodeError := { e with path := step :: e.path }

/-- The same failure, reported for the value as a whole. -/
def whole (e : DecodeError) : DecodeError := { e with path := [] }

/-- A fault of the text at its place. -/
def ofLocated (e : Source.Located) : DecodeError := ⟨e.1, .fault e.2⟩

def pathText (e : DecodeError) : String := e.path.render

def message (e : DecodeError) : String := e.cause.message

end DecodeError

end GraphQuery
