import GraphQuery.Descriptor.Decode

/-!
# Declarations

A schema declares tables and edges. An edge is a table whose rows lead from a row of one of its
sources, kept under `in`, to a row of one of its targets, kept under `out`. `Declaration.recordType`
is the shape of a stored row, `Declaration.inputType` the shape of a document a row is made from:
there the generated keys may be missing.
-/

namespace GraphQuery

/-- A table and its fields in their declared order. -/
structure TableDecl where
  name : String
  fields : List (String × Descriptor)

/-- An edge from rows of its sources to rows of its targets. -/
structure EdgeDecl where
  name : String
  sources : List String
  targets : List String
  fields : List (String × Descriptor)

inductive Declaration
  | table (decl : TableDecl)
  | edge (decl : EdgeDecl)

namespace Declaration

def name : Declaration → String
  | table t => t.name
  | edge e => e.name

def fields : Declaration → List (String × Descriptor)
  | table t => t.fields
  | edge e => e.fields

def edge? : Declaration → Option EdgeDecl
  | edge e => some e
  | table _ => none

/-- A reference to a row of one of the tables. -/
def linkTo (tables : List String) : Descriptor :=
  Descriptor.unionOf (tables.map fun t => .record (some t))

/-- The keys that the server fills in: `id`, and for an edge its two ends. -/
def generatedKeys : Declaration → List (String × Descriptor)
  | table t => [("id", .record (some t.name))]
  | edge e => [("id", .record (some e.name)), ("in", linkTo e.sources), ("out", linkTo e.targets)]

/-- The shape of a stored row: the generated keys and the declared fields. A declared field takes the
place of a generated key of its name. -/
def recordType (d : Declaration) : Descriptor := .object (Fields.extend d.generatedKeys d.fields)

/-- The shape of a document for a new row: the generated keys may be missing. -/
def inputType (d : Declaration) : Descriptor :=
  .object (Fields.extend (d.generatedKeys.map fun (name, t) => (name, t.optional)) d.fields)

/-- Names as a JSON list. -/
def encodeNames (names : List String) : Json := .strings names

/-- The declaration as a JSON value. -/
def encode : Declaration → Json
  | table t => .object [("type", .string "table"), ("name", .string t.name),
      ("fields", .object (Descriptor.encodeFields t.fields))]
  | edge e => .object [("type", .string "edge"), ("name", .string e.name),
      ("from", encodeNames e.sources), ("to", encodeNames e.targets),
      ("fields", .object (Descriptor.encodeFields e.fields))]

end Declaration

namespace Declaration.Decode

open GraphQuery.Decode

/-- A declaration of which some parts have been read. -/
structure Draft where
  name : Option String
  sources : Option (List String)
  targets : Option (List String)
  fields : List (String × Descriptor)

def Draft.empty : Draft := ⟨none, none, none, []⟩

def nameField : FieldReader Draft :=
  ⟨"name", fun d origin s => (string origin s).map fun x => { d with name := some x }, false⟩

def sourcesField : FieldReader Draft :=
  ⟨"from", fun d origin s => (list string origin s).map fun x => { d with sources := some x }, false⟩

def targetsField : FieldReader Draft :=
  ⟨"to", fun d origin s => (list string origin s).map fun x => { d with targets := some x }, false⟩

def fieldsField : FieldReader Draft :=
  ⟨"fields", fun d origin s => (Descriptor.Decode.fields origin s).map fun x => { d with fields := x },
    true⟩

/-- The body of a table. -/
def tableBody : Decoder Declaration :=
  struct "TableDecl" [nameField, fieldsField] Draft.empty fun d => do
    let name ← required "name" d.name
    return table ⟨name, d.fields⟩

/-- The body of an edge. -/
def edgeBody : Decoder Declaration :=
  struct "EdgeDecl" [nameField, sourcesField, targetsField, fieldsField] Draft.empty fun d => do
    let name ← required "name" d.name
    let sources ← required "from" d.sources
    let targets ← required "to" d.targets
    return edge ⟨name, sources, targets, d.fields⟩

/-- The values that may stand under `type`. -/
def types : List String := ["table", "edge"]

/-- The body behind a type, which was held back until the type was known. -/
def body (type : Nat) (s : Source) : Except DecodeError Declaration :=
  ((if type = 0 then tableBody else edgeBody) .buffer s).mapError DecodeError.whole

/-- The type among the entries of an object, and the other entries held back. -/
def separate (origin : Origin) (close : ObjectEnd) :
    Option Nat → List (SourceEntry Source) →
      Except DecodeError (Option Nat × List (SourceEntry Source))
  | type, [] =>
    match close with
    | .afterKey key f =>
      if key = "type" ∧ type.isSome then fail (.duplicateField "type") else fail (.fault f)
    | close => (endOfObject close).map fun _ => (type, [])
  | type, entry :: rest =>
    if entry.key = "type" then
      if type.isSome then fail (.duplicateField "type")
      else match identifier types origin entry.value with
        | .error e => .error (e.under (.key "type"))
        | .ok i => separate origin close (some i) rest
    else match buffer entry.value with
      | .error e => .error (e.under (.key entry.key))
      | .ok () => (separate origin close type rest).map fun (type, others) =>
        (type, entry :: others)

/-- Read a declaration: an object with its type under `type`, or a sequence with the type first. -/
def declaration : Decoder Declaration
  | origin, .object entries close => do
    let (type, others) ← separate origin close none entries
    let type ← required "type" type
    body type (.object others .closed)
  | _, .array [] close => do
    endOfList close
    fail (.missingField "type")
  | origin, .array (first :: rest) close => do
    let type ← (identifier types origin first).mapError (DecodeError.under (.index 0))
    let _ ← itemsFrom buffer 1 rest
    endOfList close
    body type (.array rest none)
  | _, s => unexpected "internally tagged enum Declaration" s

/-- Read a list of declarations. -/
def declarations : Decoder (List Declaration) := list declaration

end Declaration.Decode

end GraphQuery
