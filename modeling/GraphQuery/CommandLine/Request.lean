import GraphQuery.CommandLine.Options
import GraphQuery.Files.Pattern
import GraphQuery.Json.Documents

/-!
# Requests

What the command line asks for: the graph of a schema, or whether documents have the shape of a
table's rows.
-/

namespace GraphQuery.CommandLine

/-- Print the graph of a schema, or write it to a file. -/
structure GraphRequest where
  schema : List String
  out : Option String

/-- Check documents against a table. -/
structure CheckRequest where
  schema : List String
  inputs : List String
  table : String
  form : SourceForm
  pointer : Option String
  /-- Check against the shape of new rows. -/
  asInput : Bool
  /-- Take an array for one document, not for a list of rows. -/
  noSplit : Bool

inductive Request
  | graph (request : GraphRequest)
  | validate (request : CheckRequest)

namespace Request

def verboseOption : OptionSpec := ⟨"verbose", some 'v', .flag⟩

def schemaOption : OptionSpec := ⟨"schema", some 's', .many⟩

/-- Options before the command. -/
def leadingOptions : List OptionSpec := [verboseOption]

def graphOptions : List OptionSpec := [schemaOption, ⟨"out", some 'o', .one⟩, verboseOption]

def validateOptions : List OptionSpec :=
  [schemaOption, ⟨"input", some 'i', .many⟩, ⟨"table", some 't', .one⟩,
    ⟨"ndjson", none, .flag⟩, ⟨"json-pointer", none, .one⟩, ⟨"as-input", none, .flag⟩,
    ⟨"no-split", none, .flag⟩, verboseOption]

/-- All values of an option that must be given. -/
def required (given : List Given) (name : String) : Option (List String) :=
  match valuesOf given name with
  | [] => none
  | values => some values

/-- A path to write to, which must not be empty. -/
def ofGraph (given : List Given) : Option Request := do
  let schema ← required given "schema"
  let out := valueOf? given "out"
  if out = some "" then none else return graph ⟨schema, out⟩

def ofValidate (given : List Given) : Option Request := do
  let schema ← required given "schema"
  let inputs ← required given "input"
  let table ← valueOf? given "table"
  return validate {
    schema, inputs, table
    form := if isGiven given "ndjson" then .lines else .single
    pointer := valueOf? given "json-pointer"
    asInput := isGiven given "as-input"
    noSplit := isGiven given "no-split" }

/-- The request in arguments, or nothing if they are refused. -/
def ofArguments (arguments : List String) : Option Request := do
  let (leading, rest) := arguments.span fun text => !Argument.isBare text
  let (_, stopped) ← readOptions leadingOptions leading
  match stopped, rest with
  | false, "graph" :: rest => ofGraph (← readOptions graphOptions rest).1
  | false, "validate" :: rest => ofValidate (← readOptions validateOptions rest).1
  | _, _ => none

/-- The paths and patterns of the files to read. -/
def sources : Request → List String
  | graph r => r.schema
  | validate r => r.schema ++ r.inputs

/-- The file to write. -/
def target? : Request → Option String
  | graph r => r.out
  | validate _ => none

end Request

end GraphQuery.CommandLine
