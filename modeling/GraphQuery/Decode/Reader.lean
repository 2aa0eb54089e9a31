import GraphQuery.Decode.Error

/-!
# Decoders

A `Decoder` reads a source from left to right. Where a source came from shows in a few answers, so a
decoder is told: an already parsed value, text, or a part that was buffered before it was known what
to read it as. A buffered part has no places of its own; its failures are reported for the whole. A
part that is tried in several forms is shared between them, and is read more strictly than one that
is read once.

`decodeStruct` reads a record with named fields, from an object or from a sequence in field order.
Fields are read in the order in which they come; keys that are not fields are passed over.
-/

namespace GraphQuery

/-- Where a source came from. -/
inductive Origin
  | value
  | text
  /-- A part that was held back, and is read once. -/
  | buffer
  /-- A part that was held back, and is tried in several forms. -/
  | shared
  deriving DecidableEq, Repr

/-- Read a source as an `α`. -/
abbrev Decoder (α : Type) := Origin → Source → Except DecodeError α

namespace Decoder

/-- Decode an already parsed value. -/
def ofJson {α : Type} (d : Decoder α) (v : Json) : Except DecodeError α := d .value (.ofJson v)

/-- Decode the value at the head of a text; what follows it does not matter. -/
def ofText {α : Type} (d : Decoder α) (text : String) : Except DecodeError α :=
  d .text (Source.read text).1

end Decoder

namespace Decode

/-- Fail at the value itself. -/
def fail {α : Type} (cause : DecodeCause) : Except DecodeError α := .error (.here cause)

/-- What a source holds, or its fault. -/
def met : Source → Except Fault Met
  | .fault f => .error f
  | .null => .ok .null
  | .bool b => .ok (.bool b)
  | .number n => .ok (.number n)
  | .string s => .ok (.string s)
  | .array _ _ => .ok .sequence
  | .object _ _ => .ok .map

/-- Something else was expected. -/
def unexpected {α : Type} (expected : String) (s : Source) : Except DecodeError α :=
  match met s with
  | .error f => fail (.fault f)
  | .ok m => fail (.wrongType m expected)

/-- Any JSON value. -/
def json : Decoder Json := fun _ s => s.toJson.mapError .ofLocated

/-- Hold a part back, as text is read as far as the part goes. -/
def buffer (s : Source) : Except DecodeError Unit :=
  match s.toJson with
  | .error e => .error (.ofLocated e)
  | .ok _ => .ok ()

def string : Decoder String
  | _, .string s => .ok s
  | _, s => unexpected "a string" s

/-- An integer within bounds. -/
def integer (name : String) (least greatest : Int) : Decoder Int
  | _, .number (.int i) =>
    if least ≤ i ∧ i ≤ greatest then .ok i else fail (.wrongValue (.number (.int i)) name)
  | _, s => unexpected name s

/-- Null, or a value. -/
def option {α : Type} (d : Decoder α) : Decoder (Option α)
  | _, .null => .ok none
  | origin, s => (d origin s).map some

/-- A list's items, up to the first failure. -/
def itemsFrom {α : Type} (d : Source → Except DecodeError α) :
    Nat → List Source → Except DecodeError (List α)
  | _, [] => .ok []
  | i, s :: rest =>
    match d s with
    | .error e => .error (e.under (.index i))
    | .ok a => (itemsFrom d (i + 1) rest).map (a :: ·)

/-- The end of a list, all of which was read. -/
def endOfList (close : Option Fault) : Except DecodeError Unit :=
  match close with
  | some f => fail (.fault f)
  | none => .ok ()

/-- The end of an object, all of which was read. -/
def endOfObject (close : ObjectEnd) : Except DecodeError Unit :=
  (Source.endOfObject close).mapError .ofLocated

/-- A list of `α`. -/
def list {α : Type} (d : Decoder α) : Decoder (List α)
  | origin, .array items close => do
    let as ← itemsFrom (d origin) 0 items
    endOfList close
    return as
  | _, s => unexpected "a sequence" s

/-- What comes behind the items that were wanted of a list. -/
def surplus (origin : Origin) (wanted : Nat) (rest : List Source) (close : Option Fault) :
    Except DecodeError Unit :=
  match origin with
  | .value =>
    if rest.isEmpty then .ok ()
    else fail (.wrongLength (wanted + rest.length) "fewer elements in array")
  | .buffer | .shared =>
    if rest.isEmpty then .ok ()
    else fail (.wrongLength (wanted + rest.length) (toString wanted ++ " elements in sequence"))
  | .text =>
    if rest.isEmpty then
      match close with
      | none => .ok ()
      | some .trailingComma => fail (.fault .trailingComma)
      | some .endInList => fail (.fault .endInList)
      | some _ => fail (.fault .trailingCharacters)
    else fail (.fault .trailingCharacters)

/-- The position of a choice, given as a number. -/
def choiceAt (choices : List String) (i : Int) : Except DecodeError Nat :=
  if i < 0 then fail (.wrongType (.number (.int i)) "variant identifier")
  else if i < choices.length then .ok i.toNat
  else fail (.wrongValue (.number (.int i))
    ("variant index 0 <= i < " ++ toString choices.length))

/-- A name out of a list of choices; a buffered part may give its position instead. -/
def identifier (choices : List String) : Decoder Nat
  | _, .string s =>
    match choices.findIdx? (· == s) with
    | some i => .ok i
    | none => fail (.unknownVariant s choices)
  | .buffer, .number (.int i) => choiceAt choices i
  | .shared, .number (.int i) => choiceAt choices i
  | _, s => unexpected "variant identifier" s

/-- One field of a record: its name, how it is read into the record under construction, and whether
it may be missing at the end of a sequence. -/
structure FieldReader (σ : Type) where
  name : String
  read : σ → Decoder σ
  optional : Bool

/-- Read a field under its name. -/
def readField {σ : Type} (origin : Origin) (state : σ) (field : FieldReader σ) (s : Source) :
    Except DecodeError σ :=
  (field.read state origin s).mapError (DecodeError.under (.key field.name))

/-- The entries of an object as fields; `seen` holds the names of the fields read so far. -/
def structEntries {σ : Type} (fields : List (FieldReader σ)) (origin : Origin) (close : ObjectEnd) :
    σ → List String → List (SourceEntry Source) → Except DecodeError σ
  | state, seen, [] =>
    match close with
    | .afterKey key f =>
      if seen.contains key then fail (.duplicateField key) else fail (.fault f)
    | close => (endOfObject close).map fun _ => state
  | state, seen, entry :: rest =>
    match fields.find? fun field => field.name == entry.key with
    | some field =>
      if seen.contains field.name then fail (.duplicateField field.name)
      else match readField origin state field entry.value with
        | .error e => .error e
        | .ok state => structEntries fields origin close state (field.name :: seen) rest
    | none => match entry.passedOver with
      | some f => .error (.under (.key entry.key) (.here (.fault f)))
      | none => structEntries fields origin close state seen rest

/-- The items of a sequence as fields, the first of which stands at `position`. -/
def structItems {σ : Type} (expected : String) (origin : Origin) (close : Option Fault) :
    Nat → σ → List (FieldReader σ) → List Source → Except DecodeError σ
  | position, state, [], rest => (surplus origin position rest close).map fun _ => state
  | position, state, field :: fields, [] =>
    match close with
    | some f => fail (.fault f)
    | none =>
      if field.optional then structItems expected origin close (position + 1) state fields []
      else fail (.wrongLength position expected)
  | position, state, field :: fields, s :: rest =>
    match field.read state origin s with
    | .error e => .error (e.under (.index position))
    | .ok state => structItems expected origin close (position + 1) state fields rest

/-- A record with named fields. `empty` is the record before any field is read, `finish` says what
is missing at the end. -/
def struct {σ α : Type} (name : String) (fields : List (FieldReader σ)) (empty : σ)
    (finish : σ → Except DecodeError α) : Decoder α
  | origin, .object entries close => do
    finish (← structEntries fields origin close empty [] entries)
  | origin, .array items close => do
    let expected := "struct " ++ name ++ " with " ++ toString fields.length ++ " elements"
    finish (← structItems expected origin close 0 empty fields items)
  | _, s => unexpected ("struct " ++ name) s

/-- A field that has to be there. -/
def required {α : Type} (name : String) : Option α → Except DecodeError α
  | some a => .ok a
  | none => fail (.missingField name)

end Decode

end GraphQuery
